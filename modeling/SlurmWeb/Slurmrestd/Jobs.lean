import SlurmWeb.Assistant.HttpViews

/-!
# Job listings of the cached slurmrestd client (slurmweb/slurmrestd/__init__.py)

The client answers a job listing from three sources: its cached list of all jobs, that list filtered
in memory by a query, or a request of its own. A field filter of the configuration applies to what
comes from slurmrestd, before it is cached.

| here | there |
| --- | --- |
| `filterItemFields`, `Client.filteredJobs` | `filter_item_fields` (:1044), `SlurmrestdFiltered.jobs` (:1062) |
| `Client.cached` | `_cached` (:1144), the data it returns |
| `Client.splitQueryValues`, `Client.filterCachedJobs` | :1170, :1181 |
| `Client.jobs`, `Client.jobsUnfiltered` | :1213, :1221 |
| `Client.jobsByNode` | `jobs_by_node` (:584) |
| `listing`, `httpJobs` | the view `jobs` (slurmweb/views/agent.py:1112) |
| `Client.appOver` | the reads of an application over the client |
-/

namespace SlurmWeb.Slurmrestd

open Strings Py Assistant

variable {F : Type} [Python F]

/-- The client: its settings, and the two functions of texts it relies on. -/
structure Client (F : Type) where
  /-- `filters.jobs` -/
  filtersJobs : Option (List Str)
  cacheEnabled : Bool
  /-- `str.lower` -/
  lower : Str → Str
  /-- `node in NodeSet(nodes)` -/
  inNodeSet : Value F → Str → Except Py.Error Bool

/-- Lower case and node sets, as they are on plain names. -/
def asciiClient : Client ℚ := ⟨none, true, List.map Char.toLower, fun nodes node => .ok (nodes.isStr node)⟩

/-- What the client meets: the answers of slurmrestd, by query, and the cached job lists. -/
structure Cluster (F : Type) where
  request : Option (Arguments F) → Except BackendError (List (Value F))
  cachedJobs : Option (List (Value F))
  cachedUnfiltered : Option (List (Value F))

def pythonError {α : Type} (x : Except Py.Error α) : Except BackendError α := x.mapError .python

/-- `filter_item_fields` (:1044) -/
def filterItemFields (selection : List Str) : Value F → Except Py.Error (Value F)
  | .dict items => return .dict (items.filter fun item => item.1 ∈ selection)
  | _ => .error .attributeError

/-- `key in value` for a text `key` -/
def contains (value : Value F) (key : Str) : Except Py.Error Bool :=
  match value with
  | .list items => return items.any (·.isStr key)
  | .dict items => return items.any (·.1 == key)
  | .str text => return decide (key <:+: text)
  | _ => .error .typeError

/-- `job["job_state"]` -/
def jobState (job : Arguments F) : Except Py.Error (Value F) :=
  match Value.lookup job "job_state" with
  | some states => return states
  | none => .error .keyError

/-- `terminated` (:594) -/
def terminated (job : Arguments F) : Except Py.Error Bool := do
  let states ← jobState job
  if ← contains states "COMPLETED" then return true
  else if ← contains states "FAILED" then return true
  else contains states "TIMEOUT"

namespace Client

variable (client : Client F) (cluster : Cluster F)

/-- `SlurmrestdFiltered.jobs` (:1062) -/
def filteredJobs (query : Option (Arguments F)) : Except BackendError (List (Value F)) := do
  let jobs ← cluster.request query
  match client.filtersJobs with
  | none => return jobs
  | some selection => pythonError (jobs.mapM (filterItemFields selection))

/-- `_cached` (:1144) -/
def cached {α : Type} (entry : Option α) (fetch : Except BackendError α) : Except BackendError α :=
  if !client.cacheEnabled then fetch
  else match entry with
    | some data => return data
    | none => fetch

/-- `_split_query_values` (:1170) -/
def splitQueryValues (value : Value F) : List Str :=
  if value.isBlank then []
  else
    let values := match value with
      | .list items => items.map Value.toStr
      | value => value.toStr.splitOn ','
    (values.filter (strip · ≠ [])).map fun item => client.lower (strip item)

/-- `str(job.get(key, "")).lower()` -/
def lowerField (job : Arguments F) (key : Str) : Str := client.lower (Value.getOr job key (.str [])).toStr

/-- `matches` (:1191), for the values of a query. -/
def matches_ (users states accounts qosValues partitions : List Str) (job : Arguments F) : Except Py.Error Bool :=
  if users ≠ [] ∧ client.lowerField job "user_name" ∉ users then return false
  else if accounts ≠ [] ∧ client.lowerField job "account" ∉ accounts then return false
  else if qosValues ≠ [] ∧ client.lowerField job "qos" ∉ qosValues then return false
  else if partitions ≠ [] ∧ client.lowerField job "partition" ∉ partitions then return false
  else if states ≠ [] then do
    let jobStates ← (Value.getOr job "job_state" (.list [])).iterate
    return states.any fun state => state ∈ jobStates.map fun jobState => client.lower jobState.toStr
  else return true

/-- `_filter_cached_jobs` (:1181) -/
def filterCachedJobs (jobs : List (Value F)) (query : Arguments F) : Except Py.Error (List (Value F)) :=
  let values (key keys : Str) := client.splitQueryValues ((Value.get query key).or (Value.get query keys))
  Except.filterE (fun job => match job with
    | .dict items => client.matches_ (values "user" "users") (values "state" "states") (values "account" "accounts")
        (client.splitQueryValues (Value.get query "qos")) (values "partition" "partitions") items
    | _ => .error .attributeError) jobs

/-- `jobs` (:1213), without and with `query=query`. -/
def jobs : Option (Arguments F) → Except BackendError (List (Value F))
  | none => client.cached cluster.cachedJobs (client.filteredJobs cluster none)
  | some query =>
    if query ≠ [] ∧ client.cacheEnabled then do
      let jobs ← client.cached cluster.cachedJobs (client.filteredJobs cluster none)
      pythonError (client.filterCachedJobs jobs query)
    else client.filteredJobs cluster (some query)

/-- `jobs_unfiltered` (:1221) -/
def jobsUnfiltered : Except BackendError (List (Value F)) :=
  client.cached cluster.cachedUnfiltered (cluster.request none)

/-- `on_node` (:587) -/
def onNode (node : Str) (job : Arguments F) : Except Py.Error Bool :=
  match Value.lookup job "nodes" with
  | none => .error .keyError
  | some nodes => if nodes.isStr [] then return false else client.inNodeSet nodes node

/-- The condition of `jobs_by_node` (:601). -/
def runsOn (node : Str) : Value F → Except Py.Error Bool
  | .dict job => do
    if ← client.onNode node job then return !(← terminated job)
    else return false
  | _ => .error .typeError

/-- The jobs that `jobs_by_node` (:584) selects. -/
def selectOnNode (node : Str) (jobs : List (Value F)) : Except Py.Error (List (Value F)) :=
  Except.filterE (client.runsOn node) jobs

def jobsByNode (node : Str) : Except BackendError (List (Value F)) := do
  let jobs ← client.jobs cluster none
  pythonError (client.selectOnNode node jobs)

/-- An application whose job listings come from the client. -/
def appOver (app : App F) : App F :=
  { app with read := fun call => match call with
    | .jobs none => Value.list <$> client.jobs cluster none
    | .jobs (some login) => Value.list <$> client.jobs cluster (some [("user", .str login)])
    | .jobsByNode node => Value.list <$> client.jobsByNode cluster node
    | call => app.read call }

end Client

/-- A name as the values of a query hold it. -/
structure PlainName (name : Str) : Prop where
  nonempty : name ≠ []
  noComma : ',' ∉ name
  trimmed : strip name = name

/-- The query value of a plain name is that name. -/
theorem split_name (client : Client F) {name : Str} (h : PlainName name) :
    client.splitQueryValues (.str name : Value F) = [client.lower name] := by
  obtain ⟨c, cs, rfl⟩ := List.exists_cons_of_ne_nil h.nonempty
  have hkeep : strip (c :: cs) ≠ [] := by rw [h.trimmed]; exact h.nonempty
  have hsplit : (Value.str (c :: cs) : Value F).toStr.splitOn ',' = [c :: cs] := List.splitOn_eq_singleton h.noComma
  unfold Client.splitQueryValues
  rw [if_neg (by simp [Value.isBlank])]
  dsimp only
  rw [hsplit, List.filter_cons_of_pos (by simpa using hkeep), List.filter_nil, List.map_singleton, h.trimmed]

/-! ## The view of the job list (slurmweb/views/agent.py) -/

/-- `request.args.get(name)` -/
def queryArgument (args : List (Str × Str)) (name : Str) : Option Str := (args.find? (·.1 == name)).map Prod.snd

/-- `_query_values` (:82) -/
def queryValues (args : List (Str × Str)) (name : Str) : List Str :=
  ((args.filter (·.1 == name)).flatMap fun arg => arg.2.splitOn ',').map strip |>.filter (· ≠ [])

/-- `_jobs_query_args` (:89) -/
def jobsQueryArgs (args : List (Str × Str)) : Arguments F :=
  (["users".toList, "states", "accounts", "qos", "partitions"].filter (queryValues args · ≠ [])).map fun name =>
    (name, .list ((queryValues args name).map .str))

/-- The node the query string of a request names, if it names one. -/
def nodeOfQuery (args : List (Str × Str)) : Option Str := (queryArgument args "node").filter (· ≠ [])

/-- The listing the view `jobs` (:1112) asks the client for. -/
def listing (client : Client F) (cluster : Cluster F) (user : User) (scope : Str) (args : List (Str × Str)) :
    Except BackendError (List (Value F)) :=
  match nodeOfQuery args with
  | some node => client.jobsByNode cluster node
  | none =>
    if scope = "self".toList then
      client.jobs cluster (some [("user", match user.login with
        | some login => .str login
        | none => .none)])
    else if (jobsQueryArgs args : Arguments F) ≠ [] then client.jobs cluster (some (jobsQueryArgs args))
    else client.jobs cluster none

/-- `jobs` (:1112) -/
def httpJobs (app : App F) (client : Client F) (cluster : Cluster F) (user : User) (args : List (Str × Str)) :
    Except ExecError (Value F) :=
  Except.mapError handleSlurmrestdErrors do
    permissionRequired app user [("jobs", "view", "*"), ("jobs", "view", "self")]
    match ← ruleRaise (permissionScope app user "jobs" "view") with
    | none => abort403
    | some scope => do
      let result ← backendRaise (listing client cluster user scope args)
      if scope = "self".toList then return .list (← pyRaise (filterJobsForOwner user.login result))
      else return .list result

end SlurmWeb.Slurmrestd
