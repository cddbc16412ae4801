import SlurmWeb.Slurmrestd.Jobs
import SlurmWeb.Lib.CacheAside
import SlurmWeb.Lib.Dict

/-!
# The cache of the slurmrestd client (slurmweb/slurmrestd/__init__.py, slurmweb/cache.py)

Reads look their key up in Redis and fetch what is not there; write operations delete keys after
slurmrestd has answered. Readers and writers of all workers share Redis and slurmrestd only: this is
the cache-aside protocol of the library, with the client's keys and fetches.

| here | there |
| --- | --- |
| `ReadOp.key`, `ReadOp.fetch` | the cached reads (:1210-1285) and what `SlurmrestdFiltered` fetches (:1062-1126) |
| `filterFields` | `filter_fields` (:1050) |
| `WriteOp.invalidated` | the write operations (:1287-1383) |
| `protocol` | `_cached` (:1144), `_invalidate_cached_keys` (:1163), `put`, `get`, `delete` (cache.py:39) |

The hit and miss counters live under keys of their own. An `expire` is Redis dropping a key.

* `stale_only_after_late_put` — after a write has returned, a read gets older data only where another
  reader's put came after the write's deletion.
* `late_put_served` — such a run.
-/

namespace SlurmWeb.Slurmrestd

open Strings Py Assistant CacheAside

variable {F : Type}

/-- A request of `_request`; `key` is the part of the answer it returns. -/
structure Request where
  component : Str
  endpoint : Str
  key : Str
  ignoreNotfound : Bool
deriving DecidableEq

abbrev Answer (F : Type) : Type := Except BackendError (Value F)

/-- The field filters of the configuration. -/
structure Filters where
  jobs : Option (List Str)
  ctldjob : Option (List Str)
  acctjob : Option (List Str)
  nodes : Option (List Str)
  node : Option (List Str)
  partitions : Option (List Str)
  accounts : Option (List Str)
  associations : Option (List Str)
  reservations : Option (List Str)
  qos : Option (List Str)

/-- No filter. -/
def Filters.all : Filters := ⟨none, none, none, none, none, none, none, none, none, none⟩

/-- `filter_fields` (:1050) -/
def filterFields (selection : Option (List Str)) (items : Value F) : Except Py.Error (Value F) :=
  match selection, items with
  | none, items => return items
  | some selection, .list items => .list <$> items.mapM (filterItemFields selection)
  | some selection, item => filterItemFields selection item

/-- `items[0]` -/
def first : Value F → Except Py.Error (Value F)
  | .list (item :: _) => return item
  | .list [] => .error (.other "IndexError")
  | _ => .error .typeError

abbrev Fetching (F : Type) : Type := Fetch Request (Answer F) (Value F)

/-- A read ends with what Python computes. -/
def ends : Except Py.Error (Value F) → Fetching F
  | .ok value => .done value
  | .error _ => .raised

/-- A request, and what comes of its answer; an exception ends the read. -/
def request (component endpoint key : Str) (next : Value F → Fetching F) : Fetching F :=
  .ask ⟨component, endpoint, key, false⟩ fun answer => match answer with
    | .ok value => next value
    | .error _ => .raised

/-- A list of slurmrestd, filtered. -/
def fetchList (component endpoint : Str) (selection : Option (List Str)) : Fetching F :=
  request component endpoint endpoint fun items => ends (filterFields selection items)

/-- `result.update(items)` -/
def updateItems (result items : Arguments F) : Arguments F :=
  items.foldl (fun result item => Dict.put result item.1 item.2) result

/-- The second half of `job` (:1086): fields of slurmctld, unless it does not know the job (error 2017). -/
def enrich (filters : Filters) (endpoint : Str) (result : Arguments F) : Fetching F :=
  .ask ⟨"slurm", endpoint, "jobs", true⟩ fun answer => match answer with
    | .ok items => match first items >>= filterFields filters.ctldjob with
      | .ok (.dict fields) => .done (.dict (updateItems result fields))
      | _ => .raised
    | .error (.internal _ _ _ error) => if error = 2017 then .done (.dict result) else .raised
    | .error _ => .raised

inductive ReadOp
  | jobs
  | jobsUnfiltered
  | job (jobId : Int)
  | nodes
  | nodesUnfiltered
  | node (nodeName : Str)
  | partitions
  | accounts
  | associations
  | reservations
  | qos

inductive WriteOp
  | jobSubmit
  | jobUpdate (jobId : Int)
  | jobCancel (jobId : Int)
  | nodeUpdate (nodeName : Str)
  | nodeDelete (nodeName : Str)
  | accountsUpdate
  | accountDelete (accountName : Str)
  | usersUpdate
  | userDelete (username : Str)
  | associationsUpdate
  | associationsDelete
  | qosUpdate
  | qosDelete (qosName : Str)
  | reservationCreate
  | reservationUpdate (reservationName : Str)
  | reservationDelete (reservationName : Str)

/-- `f"job-{job_id}"` -/
def jobKey (jobId : Int) : Str := "job-".toList ++ (toString jobId).toList

/-- `f"node-{node_name}"` -/
def nodeKey (nodeName : Str) : Str := "node-".toList ++ nodeName

/-- The `main` of the `CacheKey`, which is the key in Redis. -/
def ReadOp.key : ReadOp → Str
  | .jobs => "jobs"
  | .jobsUnfiltered => "jobs-unfiltered"
  | .job jobId => jobKey jobId
  | .nodes => "nodes"
  | .nodesUnfiltered => "nodes-unfiltered"
  | .node nodeName => nodeKey nodeName
  | .partitions => "partitions"
  | .accounts => "accounts"
  | .associations => "associations"
  | .reservations => "reservations"
  | .qos => "qos"

/-- What a read fetches on a miss. -/
def ReadOp.fetch (filters : Filters) : ReadOp → Fetching F
  | .jobs => fetchList "slurm" "jobs" filters.jobs
  | .jobsUnfiltered => fetchList "slurm" "jobs" none
  | .job jobId =>
    let endpoint : Str := "job/".toList ++ (toString jobId).toList
    request "slurmdb" endpoint "jobs" fun items =>
      match first items >>= filterFields filters.acctjob with
      | .ok (.dict result) => enrich filters endpoint result
      | _ => .raised
  | .nodes => fetchList "slurm" "nodes" filters.nodes
  | .nodesUnfiltered => fetchList "slurm" "nodes" none
  | .node nodeName =>
    request "slurm" ("node/".toList ++ nodeName) "nodes" fun items => ends (first items >>= filterFields filters.node)
  | .partitions => fetchList "slurm" "partitions" filters.partitions
  | .accounts => fetchList "slurmdb" "accounts" filters.accounts
  | .associations => fetchList "slurmdb" "associations" filters.associations
  | .reservations => fetchList "slurm" "reservations" filters.reservations
  | .qos => fetchList "slurmdb" "qos" filters.qos

/-- The keys a write operation deletes, in order. -/
def WriteOp.invalidated : WriteOp → List Str
  | .jobSubmit => ["jobs", "jobs-unfiltered"]
  | .jobUpdate jobId | .jobCancel jobId => ["jobs", "jobs-unfiltered", jobKey jobId]
  | .nodeUpdate nodeName | .nodeDelete nodeName => ["nodes", "nodes-unfiltered", nodeKey nodeName]
  | .accountsUpdate | .accountDelete _ => ["accounts", "associations"]
  | .usersUpdate | .userDelete _ => ["associations"]
  | .associationsUpdate | .associationsDelete => ["accounts", "associations"]
  | .qosUpdate | .qosDelete _ => ["qos", "associations"]
  | .reservationCreate | .reservationUpdate _ | .reservationDelete _ => ["reservations"]

/-- The client's protocol, over a slurmrestd with states `S`. -/
def protocol {S : Type} (enabled : Bool) (filters : Filters) (answer : S → Request → Answer F) :
    Protocol Str ReadOp WriteOp Request (Answer F) (Value F) S :=
  ⟨enabled, ReadOp.key, ReadOp.fetch filters, WriteOp.invalidated, answer⟩

/-- The states of the client's runs. -/
abbrev Run (F S : Type) : Type := System Str ReadOp WriteOp Request (Answer F) (Value F) S

/-- No read that starts after a write has returned gets data older than the write, for its keys. -/
def NoStaleRead {S : Type} (s : Run F S) : Prop :=
  ∀ (w r : Nat) (wop : WriteOp) (effect : Nat) (deletions : List (Str × Nat)) (finish : Nat) (op : ReadOp) (start : Nat)
    (value : Value F) (instants : List Nat) (source : Source),
    s.writes w = .returned wop effect deletions finish → s.reads r = .returned op start value instants source →
      finish < start → op.key ∈ wop.invalidated → ∀ t ∈ instants, ¬ t < effect

/-- **Older data come from a late put only**: another reader had fetched them, and put them after the
write had deleted the key. -/
theorem stale_only_after_late_put {S : Type} (enabled : Bool) (filters : Filters) (answer : S → Request → Answer F)
    {s : Run F S} (h : Reachable (protocol enabled filters answer) s) {w r : Nat} {wop : WriteOp} {effect : Nat}
    {deletions : List (Str × Nat)} {finish : Nat} {op : ReadOp} {start : Nat} {value : Value F} {instants : List Nat}
    {source : Source} (hwrite : s.writes w = .returned wop effect deletions finish)
    (hread : s.reads r = .returned op start value instants source) (hafter : finish < start)
    (hkey : op.key ∈ wop.invalidated) {t : Nat} (ht : t ∈ instants) (hold : t < effect) :
    ∃ r' op' start' storedAt d, r' ≠ r ∧ op'.key = op.key ∧
      s.reads r' = .returned op' start' value instants (.put storedAt) ∧ (op.key, d) ∈ deletions ∧ d < storedAt :=
  stale_read h hwrite hread hafter hkey ht hold

/-- A slurmrestd that knows reservations only. -/
def reservationsOnly (reservations : List (Value ℚ)) (_ : Request) : Answer ℚ := .ok (.list reservations)

/-- A reader fetches the reservations, one is created meanwhile, and the reader puts what it has after
the deletion: the next reader gets no reservation. -/
theorem late_put_served : ∃ s : Run ℚ (List (Value ℚ)), Reachable (protocol true .all reservationsOnly) s ∧
    s.writes 0 = .returned .reservationCreate 4 [("reservations", 5)] 6 ∧
    s.reads 1 = .returned .reservations 8 (.list []) [2] .hit := by
  have h : Reachable (protocol true .all reservationsOnly) (.start []) := .start []
  have h := h.step (.call _ 0 .reservations rfl)
  have h := h.step (.miss _ 0 rfl rfl rfl)
  have h := h.step (.ask _ 0 rfl)
  have h := h.step (.write _ 0 .reservationCreate rfl)
  have h := h.step (.apply _ 0 [.dict [("name", .str "maintenance")]] rfl)
  have h := h.step (.delete _ 0 rfl)
  have h := h.step (.finish _ 0 rfl)
  have h := h.step (.put _ 0 rfl rfl)
  have h := h.step (.call _ 1 .reservations rfl)
  have h := h.step (.hit _ 1 rfl rfl rfl)
  exact ⟨_, h, rfl, rfl⟩

theorem stale_only_after_late_put_served : ∃ (s : Run ℚ (List (Value ℚ))) (r' : Nat) (op' : ReadOp)
    (start' storedAt d : Nat),
    r' ≠ 1 ∧ op'.key = "reservations" ∧ s.reads r' = .returned op' start' (.list []) [2] (.put storedAt) ∧
      ("reservations".toList, d) ∈ [("reservations".toList, 5)] ∧ d < storedAt := by
  obtain ⟨s, h, hwrite, hread⟩ := late_put_served
  exact ⟨s, stale_only_after_late_put true .all reservationsOnly h hwrite hread (by decide) (List.mem_singleton_self _)
    (List.mem_singleton_self 2) (by decide)⟩

/-- A read after the write returns what was fetched before it. -/
theorem stale_read_possible : ¬ ∀ s : Run ℚ (List (Value ℚ)),
    Reachable (protocol true .all reservationsOnly) s → NoStaleRead s := by
  intro hall
  obtain ⟨s, h, hwrite, hread⟩ := late_put_served
  exact hall s h 0 1 _ _ _ _ _ _ _ _ _ hwrite hread (by decide) (List.mem_singleton_self _) 2
    (List.mem_singleton_self 2) (by decide)

end SlurmWeb.Slurmrestd
