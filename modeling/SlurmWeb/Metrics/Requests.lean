import SlurmWeb.Lib.Except
import SlurmWeb.Lib.UrlQuery
import SlurmWeb.Lib.PromQl

/-!
# Requests to the metrics database (slurmweb/metrics/db.py, slurmweb/views/agent.py)

A request for a metric is a PromQL query in the query string of a URL, both put together as strings. The
partition a client asks for, and the name of a node, stand in it between quotes.

| here | there |
| --- | --- |
| `resolveResolution` | `_resolve_resolution` (db.py:193) |
| `query` | `_query` (db.py:294) |
| `request` | `request` (db.py:135), as far as the URLs |
| `durationResolution` | `_duration_resolution` (db.py:351) |
| `nodeInstantMetrics`, `nodeHistoryMetrics` | `node_instant_metrics`, `node_history_metrics` (:358, :509), to the URLs |
| `metrics` | `metrics` (agent.py:1420) |

* `Reads` — the database reads an expression, and nothing else.
* `intended`, `nodeIntended`, `nodeHistoryIntended` — what the requests are for.
-/

namespace SlurmWeb.Metrics

open Strings UrlQuery PromQl

/-! ## Parameters of the queries -/

structure RangeResolution where
  step : Str
  range : Str
  rounding : Nat

structure RangeResolutionSet where
  hour : RangeResolution
  day : RangeResolution
  week : RangeResolution

structure MetricQuery where
  endpoint : Str
  ids : List Str
  resolution : RangeResolutionSet
  agg : Option Str

inductive Metric
  | nodes | cores | gpus | memory | jobs | cache | users
deriving DecidableEq

/-- `PARTITION_SUPPORTED_METRICS` -/
def Metric.partitionSupported : Metric → Bool
  | .nodes | .cores | .gpus | .memory | .jobs => true
  | .cache | .users => false

/-- `RANGE_RESOLUTIONS["30s"]` -/
def resolution30s : RangeResolutionSet where
  hour := ⟨"30s".toList, "1h".toList, 30⟩
  day := ⟨"10m".toList, "1d".toList, 600⟩
  week := ⟨"1h".toList, "1w".toList, 3600⟩

/-- `RANGE_RESOLUTIONS["1m"]` -/
def resolution1m : RangeResolutionSet where
  hour := ⟨"1m".toList, "1h".toList, 60⟩
  day := ⟨"10m".toList, "1d".toList, 600⟩
  week := ⟨"1h".toList, "1w".toList, 3600⟩

def averaged (id : String) (resolution : RangeResolutionSet) : MetricQuery :=
  ⟨"query".toList, [id.toList], resolution, some "avg_over_time".toList⟩

/-- `METRICS_QUERY_PARAMS` -/
def queryParams : Metric → MetricQuery
  | .nodes => averaged "slurm_nodes" resolution30s
  | .cores => averaged "slurm_cores" resolution30s
  | .gpus => averaged "slurm_gpus" resolution30s
  | .memory => averaged "slurm_memory" resolution30s
  | .jobs => averaged "slurm_jobs" resolution30s
  | .cache =>
    ⟨"query_range".toList, ["slurmweb_cache_hit_total".toList, "slurmweb_cache_miss_total".toList], resolution1m, none⟩
  | .users => averaged "slurmweb_user_submissions_last_minute" resolution1m

/-! ## Requests -/

/-- What the database raises, with its message. -/
inductive MetricsError
  | metricsDb (message : Str)
deriving DecidableEq

def unsupportedRange (last : Str) : MetricsError := .metricsDb ("Unsupported metric range ".toList ++ last)

structure MetricsDb where
  baseUri : Str
  job : Str
  baseUri_path : '?' ∉ baseUri

/-- Times are in microseconds. -/
def seconds (n : Int) : Int := n * 1000000

def hours (n : Int) : Int := seconds (n * 3600)

def days (n : Int) : Int := hours (n * 24)

/-- The range a client names. -/
def RangeResolutionSet.named (set : RangeResolutionSet) (last : Str) : Except MetricsError RangeResolution :=
  if last = "hour".toList then .ok set.hour
  else if last = "day".toList then .ok set.day
  else if last = "week".toList then .ok set.week
  else .error (unsupportedRange last)

/-- The resolution for a window of this length. -/
def RangeResolutionSet.ofDuration (set : RangeResolutionSet) (duration : Int) : RangeResolution :=
  if duration ≤ hours 2 then set.hour else if duration ≤ days 7 then set.day else set.week

def resolveResolution (params : MetricQuery) (last : Str) : Option Int → Option Int →
    Except MetricsError RangeResolution
  | some startTime, some endTime => .ok (params.resolution.ofDuration (endTime - startTime))
  | _, _ => params.resolution.named last

/-- `timestamp - timestamp % rounding`, in seconds. -/
def rounded (resolution : RangeResolution) (timestamp : Int) : Int :=
  timestamp / (seconds resolution.rounding) * resolution.rounding

/-- As Python writes a whole number that is a float. -/
def floatText (n : Int) : Str := (toString n).toList ++ ".0".toList

/-- The start of the window that ends now. -/
def startOf (last : Str) (now : Int) : Except MetricsError Int :=
  if last = "hour".toList then .ok (now - hours 1)
  else if last = "day".toList then .ok (now - days 1)
  else if last = "week".toList then .ok (now - days 7)
  else .error (unsupportedRange last)

namespace MetricsDb

variable (db : MetricsDb)

/-- The labels a metric is filtered on. -/
def filter (metric : Metric) (partition : Option Str) : Str :=
  "\x7b".toList ++ [','].intercalate (["job='".toList ++ db.job ++ "'".toList] ++
    if metric.partitionSupported then ["partition='".toList ++ partition.getD [] ++ "'".toList] else []) ++
      "\x7d".toList

def query (metric : Metric) (id : Str) (params : MetricQuery) (last : Str) (partition : Option Str)
    (startTime endTime : Option Int) (now : Int) : Except MetricsError Str := do
  let resolution ← resolveResolution params last startTime endTime
  let filter := db.filter metric partition
  match params.agg with
  | some agg =>
    let averages := agg ++ "(".toList ++ id ++ filter ++ "[".toList ++ resolution.step ++ "])".toList
    match startTime, endTime with
    | some startTime, some endTime =>
      .ok ("query_range?query=".toList ++ averages ++
        "&start=".toList ++ floatText (rounded resolution startTime) ++ "&end=".toList ++
          floatText (rounded resolution endTime) ++
        "&step=".toList ++ resolution.step)
    | _, _ =>
      .ok (params.endpoint ++ "?query=".toList ++ averages ++
        "[".toList ++ resolution.range ++ ":".toList ++ resolution.step ++ "]".toList)
  | none =>
    let start ← startOf last now
    let (start, stop) := match startTime, endTime with
      | some startTime, some endTime => (startTime, endTime)
      | _, _ => (start, now)
    .ok (params.endpoint ++ "?query=".toList ++ id ++ filter ++ "-".toList ++ id ++ filter ++ " offset ".toList ++
      resolution.step ++ " ".toList ++
      "&start=".toList ++ floatText (rounded resolution start) ++ "&end=".toList ++
        floatText (rounded resolution stop) ++
      "&step=".toList ++ resolution.step)

/-- The URL of a query. -/
def url (query : Str) : Str := db.baseUri ++ "/api/v1/".toList ++ query

/-- The URLs asked for a metric. -/
def request (metric : Metric) (last : Str) (partition : Option Str) (startTime endTime : Option Int) (now : Int) :
    Except MetricsError (List Str) :=
  let params := queryParams metric
  let partition := if metric.partitionSupported then partition else none
  params.ids.mapM fun id => db.url <$> db.query metric id params last partition startTime endTime now

/-- The matcher of a node, up to the end of the selector. -/
def nodeMatcher (nodeName hostnameLabel : Str) : Str := hostnameLabel ++ "=\"".toList ++ nodeName ++ "\"\x7d".toList

/-- The queries about one node, the same in both functions. -/
def nodeQueries (nodeName hostnameLabel : Str) : List (Str × Str) :=
  [("cpu_usage".toList,
      "100 - (avg(rate(node_cpu_seconds_total\x7bmode=\"idle\",".toList ++ (nodeMatcher nodeName hostnameLabel ++
        "[1m])) * 100)".toList)),
    ("memory_usage".toList,
      "100 * (1 - (node_memory_MemAvailable_bytes\x7b".toList ++ (nodeMatcher nodeName hostnameLabel ++
        (" / node_memory_MemTotal_bytes\x7b".toList ++ (nodeMatcher nodeName hostnameLabel ++ "))".toList)))),
    ("disk_usage".toList,
      "100 - ((node_filesystem_avail_bytes\x7bmountpoint=\"/\",".toList ++ (nodeMatcher nodeName hostnameLabel ++
        (" / node_filesystem_size_bytes\x7bmountpoint=\"/\",".toList ++
          (nodeMatcher nodeName hostnameLabel ++ ") * 100)".toList))))]

def nodeInstantMetrics (nodeName hostnameLabel : Str) : List Str :=
  (nodeQueries nodeName hostnameLabel).map fun (_, promql) => db.url ("query?query=".toList ++ promql)

def durationResolution (duration : Int) : RangeResolution := resolution30s.ofDuration duration

/-- What a history is about (:521-541): its start, its end and its resolution. -/
def historyWindow (last : Str) (startTime endTime : Option Int) (now : Int) :
    Except MetricsError (Int × Int × RangeResolution) :=
  match startTime, endTime with
  | some startTime, some endTime => .ok (startTime, endTime, durationResolution (endTime - startTime))
  | _, _ => do
    let resolution ← resolution30s.named last
    let start ← startOf last now
    .ok (start, now, resolution)

def nodeHistoryMetrics (nodeName last hostnameLabel : Str) (startTime endTime : Option Int) (now : Int) :
    Except MetricsError (List Str) := do
  let (start, stop, resolution) ← historyWindow last startTime endTime now
  .ok ((nodeQueries nodeName hostnameLabel).map fun (_, promql) =>
    db.url ("query_range?query=".toList ++ promql ++ "&start=".toList ++ (toString (rounded resolution start)).toList ++
      "&end=".toList ++ (toString (rounded resolution stop)).toList ++ "&step=".toList ++ resolution.step))

end MetricsDb

/-! ## The view -/

/-- What the view raises. -/
inductive HttpError
  | abort (code : Nat) (description : Str)
  | valueError (message : Str)
deriving DecidableEq

def Metric.named (name : Str) : Option Metric :=
  if name = "nodes".toList then some .nodes
  else if name = "cores".toList then some .cores
  else if name = "gpus".toList then some .gpus
  else if name = "memory".toList then some .memory
  else if name = "jobs".toList then some .jobs
  else if name = "users".toList then some .users
  else if name = "cache".toList then some .cache
  else none

/-- `metrics_permissions`: resource, operation and scope. -/
def Metric.permission : Metric → Str × Str × Str
  | .nodes | .cores | .gpus | .memory => ("resources".toList, "view".toList, "*".toList)
  | .jobs | .users => ("jobs".toList, "view".toList, "*".toList)
  | .cache => ("admin/cache".toList, "view".toList, "*".toList)

/-- `_parse_metrics_window_query_args`, from the two parsed arguments. -/
def metricsWindow (startTime endTime : Except Str (Option Int)) : Except Str (Option Int × Option Int) := do
  match ← startTime, ← endTime with
  | none, none => .ok (none, none)
  | some startTime, some endTime =>
    if startTime ≥ endTime then .error "start must be earlier than end".toList else .ok (some startTime, some endTime)
  | _, _ => .error "start and end must both be provided".toList

/-- A request of a client. -/
structure MetricsArgs where
  range : Option Str
  partition : Option Str
  startTime : Except Str (Option Int)
  endTime : Except Str (Option Int)

/-- The URLs the view asks the database for; `allowed` is the policy of the requester. -/
def metrics (allowed : Str × Str × Str → Bool) (metricsDb : Option MetricsDb) (userMetricsEnabled : Bool) (metric : Str)
    (args : MetricsArgs) (now : Int) : Except HttpError (List Str) :=
  match metricsDb with
  | none => .error (.abort 501 "Metrics are disabled, unable to query values".toList)
  | some db =>
    match Metric.named metric with
    | none => .error (.abort 404 ("Metric ".toList ++ metric ++ " not found".toList))
    | some id =>
      if id = .users ∧ ¬ userMetricsEnabled then .error (.abort 501 "User metrics is disabled".toList)
      else if ¬ allowed id.permission then
        .error (.abort 403 ("Access to ".toList ++ metric ++ " metric not permitted".toList))
      else
        match metricsWindow args.startTime args.endTime with
        | .error message => .error (.valueError message)
        | .ok (startTime, endTime) =>
          match db.request id (args.range.getD "hour".toList) args.partition startTime endTime now with
          | .error (.metricsDb message) => .error (.abort 500 message)
          | .ok urls => .ok urls

/-! ## What a request is for -/

/-- Series of a metric, by labels that are equal to a value. -/
structure Selector where
  metric : Str
  labels : List (Str × Str)

def matcher (label : Str × Str) : List Token := [.label (utf8 label.1), .symbol '=', .string (utf8 label.2)]

def Selector.tokens (selector : Selector) : List Token :=
  .word (utf8 selector.metric) :: .symbol '\x7b' ::
    ([.symbol ','].intercalate (selector.labels.map matcher) ++ [.symbol '\x7d'])

/-- Fixed text of an expression. -/
def fixed (text : Str) : List Token := (tokens (utf8 text)).getD []

/-- A path, an expression, and what stands next to it. -/
structure Intended where
  path : Str
  expression : List Token
  times : List (Str × Str)

/-- The database reads that expression, and nothing else. -/
def Reads (url : Str) (intended : Intended) : Prop :=
  ∃ text, UrlQuery.request url =
      some (intended.path, (utf8 "query".toList, text) :: intended.times.map fun p => (utf8 p.1, utf8 p.2)) ∧
    tokens text = some intended.expression

/-- The requests were made, each one is what was intended. -/
def AllRead (urls : Except MetricsError (List Str)) (intended : Except MetricsError (List Intended)) : Prop :=
  ∃ sent meant, urls = .ok sent ∧ intended = .ok meant ∧ List.Forall₂ Reads sent meant

def times (startTime endTime step : Str) : List (Str × Str) :=
  [("start".toList, startTime), ("end".toList, endTime), ("step".toList, step)]

/-- A range or a window of time the database knows. -/
def Supported (last : Str) (startTime endTime : Option Int) : Prop :=
  (startTime.isSome ∧ endTime.isSome) ∨ last ∈ ["hour".toList, "day".toList, "week".toList]

namespace MetricsDb

variable (db : MetricsDb)

/-- The series of a metric in one partition. -/
def partitionSelector (id : Str) (partition : Option Str) : Selector :=
  ⟨id, [("job".toList, db.job), ("partition".toList, partition.getD [])]⟩

/-- The average of a metric in one partition: over a window, or at each step of a range. -/
def intended (metric : Metric) (last : Str) (partition : Option Str) (startTime endTime : Option Int) :
    Except MetricsError (List Intended) := do
  let params := queryParams metric
  let resolution ← resolveResolution params last startTime endTime
  .ok (params.ids.map fun id =>
    let selected := fixed (params.agg.getD [] ++ "(".toList) ++ (db.partitionSelector id partition).tokens
    match startTime, endTime with
    | some startTime, some endTime =>
      ⟨db.url "query_range".toList, selected ++ fixed ("[".toList ++ resolution.step ++ "])".toList),
        times (floatText (rounded resolution startTime)) (floatText (rounded resolution endTime)) resolution.step⟩
    | _, _ =>
      ⟨db.url params.endpoint, selected ++ fixed ("[".toList ++ resolution.step ++ "])[".toList ++ resolution.range ++
        ":".toList ++ resolution.step ++ "]".toList), []⟩)

/-- The series of one node. -/
def nodeSelector (metric : String) (labels : List (Str × Str)) (nodeName hostnameLabel : Str) : Selector :=
  ⟨metric.toList, labels ++ [(hostnameLabel, nodeName)]⟩

/-- The usage of one node: its processors, its memory and its file system. -/
def nodeExpressions (nodeName hostnameLabel : Str) : List (List Token) :=
  [fixed "100 - (avg(rate(".toList ++
      (nodeSelector "node_cpu_seconds_total" [("mode".toList, "idle".toList)] nodeName hostnameLabel).tokens ++
      fixed "[1m])) * 100)".toList,
    fixed "100 * (1 - (".toList ++ (nodeSelector "node_memory_MemAvailable_bytes" [] nodeName hostnameLabel).tokens ++
      fixed " / ".toList ++ (nodeSelector "node_memory_MemTotal_bytes" [] nodeName
        hostnameLabel).tokens ++ fixed "))".toList,
    fixed "100 - ((".toList ++
      (nodeSelector "node_filesystem_avail_bytes" [("mountpoint".toList, "/".toList)] nodeName hostnameLabel).tokens ++
      fixed " / ".toList ++
      (nodeSelector "node_filesystem_size_bytes" [("mountpoint".toList, "/".toList)] nodeName hostnameLabel).tokens ++
      fixed ") * 100)".toList]

def nodeIntended (nodeName hostnameLabel : Str) : List Intended :=
  (nodeExpressions nodeName hostnameLabel).map fun expression => ⟨db.url "query".toList, expression, []⟩

/-- The same over a window of time. -/
def nodeHistoryIntended (nodeName last hostnameLabel : Str) (startTime endTime : Option Int) (now : Int) :
    Except MetricsError (List Intended) := do
  let (start, stop, resolution) ← historyWindow last startTime endTime now
  .ok ((nodeExpressions nodeName hostnameLabel).map fun expression =>
    ⟨db.url "query_range".toList, expression, times (toString (rounded resolution start)).toList
      (toString (rounded resolution stop)).toList resolution.step⟩)

end MetricsDb

/-- A text that says the same in a URL, and in a query between these quotes. -/
def Harmless (quote : Char) (s : Str) : Prop :=
  ∀ c ∈ s, c ≠ quote ∧ c ≠ '\\' ∧ c ≠ '\n' ∧ c ≠ '&' ∧ c ≠ '%'

instance (quote : Char) (s : Str) : Decidable (Harmless quote s) :=
  decidable_of_iff ((s.all fun c => c ≠ quote ∧ c ≠ '\\' ∧ c ≠ '\n' ∧ c ≠ '&' ∧ c ≠ '%') = true) (by simp [Harmless])

end SlurmWeb.Metrics
