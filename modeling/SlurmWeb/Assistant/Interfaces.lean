import SlurmWeb.Permission.Policy
import SlurmWeb.Lib.PyValue
import SlurmWeb.Lib.Effects

/-!
# The assistant's interfaces (slurmweb/ai/agent_interfaces.py)

Every interface of `AIAgentInterfaceRegistry` is a program over the agent application: it checks
the user's permissions itself, reads from the cluster and, for the last sixteen, writes to
slurmrestd. A read is a value of type `Read`, a write a value of type `Write`; what they answer
is a parameter.

| here | there |
| --- | --- |
| `permissionScope`, `requirePermissionScope`, `requireAny`, `requirePermission` | :386-410 |
| `ensureWriteSupported` | :412 |
| `handleBackendError` | :421 |
| `intArgument` .. `validateQosPayload` | :461-535 |
| `jobOwner` | :58 (and slurmweb/views/agent.py:410, the same code) |
| the handlers | :559-994 |
| `execute` | :1041 |

The payload of `stats`, of the analysis context and of the history stores is computed without any
further check; it is the answer of one `Read`.
-/

namespace SlurmWeb

open Strings

/-- `getattr(user, "login", None)` -/
def User.login : User → Option Str
  | .anonymous => none
  | .authenticated login _ => some login

end SlurmWeb

namespace SlurmWeb.Assistant

open Strings Py

variable {F : Type}

/-! ## The application -/

/-- What slurmrestd, the cache and the metrics databases raise. -/
inductive BackendError
  | notFound (text : Str)
  | invalidResponse (text : Str)
  | connection (text : Str)
  | authentication (text : Str)
  | internal (description source message : Str) (error : Int)
  | cache (text : Str)
  | metricsDb (text : Str)
  | python (err : Py.Error)

inductive Read (F : Type)
  | stats
  | analysisContext
  | jobs (user : Option Str)
  | jobsByNode (node : Str)
  | jobHistory (filters : List (Str × Value F))
  | jobHistoryRecord (id : Int)
  | nodes
  | node (name : Str)
  | nodeInstantMetrics (name : Str)
  | nodeHistoryMetrics (name : Str) (range : Value F)
  | partitions
  | qos
  | reservations
  | accounts
  | account (name : Str)
  | associations
  | users
  | user (name : Str)
  | userMetricsHistory (username : Str) (range : Value F) (start stop : Option Int)
  | userToolAnalysis (username : Str) (start stop : Option Int)

/-- The write operations of the slurmrestd client. -/
inductive Write (F : Type)
  | jobSubmit (payload : Value F)
  | jobUpdate (jobId : Int) (payload : Value F)
  | jobCancel (jobId : Int) (payload : Value F)
  | nodeUpdate (name : Str) (payload : Value F)
  | nodeDelete (name : Str)
  | reservationCreate (payload : Value F)
  | reservationUpdate (name : Str) (payload : Value F)
  | reservationDelete (name : Str)
  | accountsUpdate (payload : Value F)
  | accountDelete (name : Str)
  | associationsUpdate (payload : Value F)
  | associationsDelete (payload : Value F)
  | usersUpdate (payload : Value F)
  | userDelete (name : Str)
  | qosUpdate (payload : Value F)
  | qosDelete (name : Str)

/-- The agent application: its policy and the state of the cluster behind it. -/
structure App (F : Type) where
  policy : AccessControlPolicyManager
  discover : Except BackendError Str
  supportsWriteOperations : Bool
  apiVersion : Option Str
  job : Int → Except BackendError (Value F)
  read : Read F → Except BackendError (Value F)
  write : Write F → Except BackendError (Value F)
  jobsStore : Bool
  nodeMetricsDb : Bool
  userMetricsEnabled : Bool
  userMetricsStore : Bool
  /-- `datetime.fromisoformat(s.replace("Z", "+00:00"))` in UTC; `none` is a `ValueError`. -/
  fromIso : Str → Option Int

/-- A cluster that answers every read with an empty object. -/
def emptyCluster : App ℚ where
  policy := ⟨⟨fun _ => (["user"], ["view-stats"]), fun _ => false, ["view-stats"]⟩, false, none, defaultLegacyMap⟩
  discover := .ok "0.0.42"
  supportsWriteOperations := true
  apiVersion := some "0.0.42"
  job _ := .ok (.dict [])
  read _ := .ok (.dict [])
  write _ := .ok (.dict [])
  jobsStore := false
  nodeMetricsDb := false
  userMetricsEnabled := false
  userMetricsStore := false
  fromIso _ := none

/-- What a handler raises: an `AIAgentInterfaceError`, an exception of the backend, or the
`abort` of a view it calls. -/
inductive ExecError
  | interface (status : Nat) (message : Str)
  | backend (err : BackendError)
  | http (status : Nat) (message : Str)

structure AIAgentInterfaceResult (F : Type) where
  interfaceKey : Str
  statusCode : Nat
  payload : Value F
  summary : Str

abbrev Handler (F α : Type) : Type := Prog ExecError (Write F) α

def pyRaise {α : Type} (x : Except Py.Error α) : Except ExecError α := x.mapError fun e => .backend (.python e)

def backendRaise {α : Type} (x : Except BackendError α) : Except ExecError α := x.mapError .backend

/-! ## Permission checks (:386-410) -/

/-- `_require_permission_scope` (:393, and views/agent.py:397): the scope a user holds; `none`
where the code answers 403. -/
def permissionScope (app : App F) (user : User) (resource operation : Str) : Except RuleError (Option Str) := do
  if ← app.policy.allowedUserPermission user resource operation "*" then return some "*"
  else if ← app.policy.allowedUserPermission user resource operation "self" then
    return if user.login.any (· ≠ []) then some "self" else none
  else return none

/-- The loop of `_require_any` (:402) and of `permission_required` (views/agent.py:497). -/
def anyAllowed (app : App F) (user : User) : List (Str × Str × Str) → Except RuleError Bool
  | [] => return false
  | (resource, operation, scope) :: requirements => do
    if ← app.policy.allowedUserPermission user resource operation scope then return true
    else anyAllowed app user requirements

def ruleRaise {α : Type} (x : Except RuleError α) : Except ExecError α :=
  x.mapError fun _ => .backend (.python .valueError)

def forbidden {α : Type} : Except ExecError α := .error (.interface 403 "Access not permitted")

def requirePermissionScope (app : App F) (user : User) (resource operation : Str) : Except ExecError Str := do
  match ← ruleRaise (permissionScope app user resource operation) with
  | some scope => return scope
  | none => forbidden

/-- `_require_any` (:402) -/
def requireAny (app : App F) (user : User) (requirements : List (Str × Str × Str)) : Except ExecError Unit := do
  if ← ruleRaise (anyAllowed app user requirements) then return () else forbidden

/-- `_require_permission` (:408) -/
def requirePermission (app : App F) (user : User) (resource operation scope : Str) : Except ExecError Unit :=
  requireAny app user [(resource, operation, scope)]

/-- `_ensure_write_supported` (:412) -/
def ensureWriteSupported (app : App F) (operation : Str) : Except ExecError Str := do
  let apiVersion ← backendRaise app.discover
  if app.supportsWriteOperations then return apiVersion
  else .error (.interface 501 (operation ++ " is unsupported on slurmrestd API ".toList ++ apiVersion))

/-- Status and text of the slurmrestd and cache errors, for `_handle_backend_error` (:421) and for
`handle_slurmrestd_errors` (views/agent.py:606). -/
def slurmrestdStatus : BackendError → Option (Nat × Str)
  | .notFound text => some (404, "URL not found on slurmrestd: ".toList ++ text)
  | .invalidResponse text => some (500, "Invalid response from slurmrestd: ".toList ++ text)
  | .connection text => some (500, "Unable to connect to slurmrestd: ".toList ++ text)
  | .authentication text => some (401, "Authentication error on slurmrestd: ".toList ++ text)
  | .internal description source message error =>
    let text := "slurmrestd error: ".toList ++ description ++ " (".toList ++ source ++ ")".toList
    some (500, if error ≠ -1 then
      text ++ " [".toList ++ message ++ "/".toList ++ (toString error).toList ++ "]".toList else text)
  | .cache text => some (500, "Cache error: ".toList ++ text)
  | .metricsDb _ | .python _ => none

/-- `_handle_backend_error` (:421) -/
def handleBackendError : ExecError → ExecError
  | .backend (.metricsDb text) => .interface 500 text
  | .backend err =>
    match slurmrestdStatus err with
    | some (status, message) => .interface status message
    | none => .backend err
  | err => err

/-- `handle_slurmrestd_errors` (views/agent.py:606) -/
def handleSlurmrestdErrors : ExecError → ExecError
  | .backend err =>
    match slurmrestdStatus err with
    | some (status, message) => .http status message
    | none => .backend err
  | err => err

/-! ## Arguments (:461-535) -/

section Arguments

variable [Python F]

abbrev Arguments (F : Type) : Type := List (Str × Value F)

/-- `arguments.get(key)` -/
def argument (arguments : Arguments F) (key : Str) : Value F := (Value.lookup arguments key).getD .none

/-- `_limit` (:448) -/
def limitItems (items : Value F) (limit : Value F) : Except ExecError (Value F) :=
  match items, limit with
  | .list items, .none => return .list items
  | .list items, limit => do
    let n ← pyRaise (Py.orElse (limit.toInt.map fun n => max 1 (min n 50)) 10)
    return .list (items.take n.toNat)
  | items, _ => return items

/-- `_int_argument` (:460): a missing key, a wrong type and a bad literal are 400s. -/
def intArgument (arguments : Arguments F) (key : Str) : Except ExecError Int :=
  match Value.lookup arguments key with
  | none => .error (.interface 400 (key ++ " must be an integer".toList))
  | some value =>
    match value.toInt with
    | .ok n => return n
    | .error .typeError | .error .valueError => .error (.interface 400 (key ++ " must be an integer".toList))
    | .error e => .error (.backend (.python e))

/-- `_string_argument` (:467) -/
def stringArgument (arguments : Arguments F) (key : Str) : Except ExecError Str :=
  let value := strip ((Value.lookup arguments key).getD (.str [])).toStr
  if value = [] then .error (.interface 400 (key ++ " is required".toList)) else return value

/-- `_payload_argument` (:474) -/
def payloadArgument (arguments : Arguments F) : Except ExecError (Arguments F) :=
  match argument arguments "payload" with
  | .dict payload => return payload
  | _ => .error (.interface 400 "payload must be an object")

/-- `_payload_entries` (:481) -/
def payloadEntries (payload : Arguments F) (key : Str) : List (Value F) :=
  match argument payload key with
  | .list entries => entries
  | _ => [.dict payload]

/-- `_required_nonempty_string` (:488) -/
def requiredNonemptyString : Value F → Bool
  | .str s => strip s ≠ []
  | _ => false

/-- `f"{key}[{index}]{text}"` -/
def entryMessage (key : Str) (index : Nat) (text : Str) : Str :=
  key ++ "[".toList ++ (toString index).toList ++ "]".toList ++ text

/-- The loop of `_validate_accounts_payload` (:492). -/
def validateAccounts : Nat → List (Value F) → Except ExecError Unit
  | _, [] => return ()
  | index, .dict account :: entries => do
    if !requiredNonemptyString (argument account "name") then
      .error (.interface 400 (entryMessage "accounts" index ".name is required"))
    else if !requiredNonemptyString (argument account "organization") then
      .error (.interface 400 (entryMessage "accounts" index
        ".organization is required and must match the account form payload"))
    else validateAccounts (index + 1) entries
  | index, _ :: _ => .error (.interface 400 (entryMessage "accounts" index " must be an object"))

def validateAccountsPayload (payload : Arguments F) : Except ExecError (Arguments F) := do
  validateAccounts 0 (payloadEntries payload "accounts")
  return payload

/-- `required_fields` of `_validate_qos_payload` (:507) -/
def qosRequiredFields : List Str := ["max_submit_jobs_per_user", "max_jobs_per_user", "max_wall_duration_per_job"]

def validateQosFields (index : Nat) (qos : Arguments F) : List Str → Except ExecError Unit
  | [] => return ()
  | field :: fields =>
    if (argument qos field).isBlank then
      .error (.interface 400 (entryMessage "qos" index
        (".".toList ++ field ++ " is required and must match the QOS form payload".toList)))
    else validateQosFields index qos fields

/-- The loop of `_validate_qos_payload` (:506). -/
def validateQos : Nat → List (Value F) → Except ExecError Unit
  | _, [] => return ()
  | index, .dict qos :: entries => do
    if !requiredNonemptyString (argument qos "name") then
      .error (.interface 400 (entryMessage "qos" index ".name is required"))
    else do
      validateQosFields index qos qosRequiredFields
      validateQos (index + 1) entries
  | index, _ :: _ => .error (.interface 400 (entryMessage "qos" index " must be an object"))

def validateQosPayload (payload : Arguments F) : Except ExecError (Arguments F) := do
  validateQos 0 (payloadEntries payload "qos")
  return payload

/-- `_datetime_argument` (:525) -/
def datetimeArgument (app : App F) (arguments : Arguments F) (key : Str) : Except ExecError (Option Int) :=
  if (argument arguments key).isBlank then return none
  else match app.fromIso (argument arguments key).toStr with
    | some time => return some time
    | none => .error (.interface 400 (key ++ " must be a valid ISO 8601 datetime".toList))

/-! ## Results (:438, :536) -/

/-- `_truncate_text` (:21) -/
def truncateText (value : Value F) : Str :=
  let text := Python.dumps value
  if text.length ≤ 1200 then text else text.take 1197 ++ "...".toList

def result (interfaceKey : Str) (payload : Value F) (statusCode : Nat) : AIAgentInterfaceResult F :=
  ⟨interfaceKey, statusCode, payload, truncateText payload⟩

/-- `slurmrestd.api_version or slurmrestd.discover()[2]` -/
def currentApiVersion (app : App F) : Except ExecError Str :=
  match app.apiVersion.filter (· ≠ []) with
  | some apiVersion => .ok apiVersion
  | none => backendRaise app.discover

/-- `_normalize_operation_result` (:536) -/
def normalizeOperationResult (app : App F) (operation : Str) (target response : Value F) :
    Except ExecError (Value F) := do
  let apiVersion ← currentApiVersion app
  match response with
  | .dict items =>
    return .dict [("supported", .bool true), ("operation", .str operation), ("target", target),
      ("api_version", .str apiVersion),
      ("warnings", (Value.lookup items "warnings").getD (.list [])),
      ("errors", (Value.lookup items "errors").getD (.list [])),
      ("result", .dict (items.filter fun item => item.1 ∉ ["meta".toList, "warnings", "errors"]))]
  | _ => .error (.backend (.python .attributeError))

/-! ## Job owners (:58) -/

/-- The first truthy value of the keys. -/
def firstTruthy (job : Arguments F) : List Str → Option (Value F)
  | [] => none
  | key :: keys => if (argument job key).truthy then some (argument job key) else firstTruthy job keys

/-- `_job_owner` (:58) -/
def jobOwner : Value F → Except Py.Error (Option (Value F))
  | .dict job =>
    match argument job "association" with
    | .dict association =>
      if (argument association "user").truthy then return some (argument association "user")
      else return firstTruthy job ["user_name", "user"]
    | _ => return firstTruthy job ["user_name", "user"]
  | _ => .error .attributeError

/-- `owner is not None and owner == login` -/
def ownedBy (owner : Option (Value F)) (login : Option Str) : Bool :=
  match owner, login with
  | some (.str owner), some login => owner == login
  | _, _ => false

/-- `_filter_jobs_for_owner` (:71) -/
def filterJobsForOwner (login : Option Str) : List (Value F) → Except Py.Error (List (Value F))
  | [] => return []
  | job :: jobs => do
    let owner ← jobOwner job
    let rest ← filterJobsForOwner login jobs
    return if ownedBy owner login then job :: rest else rest

def filterJobs (login : Option Str) : Value F → Except Py.Error (Value F)
  | .list jobs => do return .list (← filterJobsForOwner login jobs)
  | _ => .error .typeError

/-! ## Read interfaces (:559-826) -/

/-- `self._require_any(user, requirements)`, one read, its result. -/
def guardedRead (app : App F) (user : User) (requirements : List (Str × Str × Str)) (interfaceKey : Str)
    (call : Except ExecError (Read F)) : Except ExecError (AIAgentInterfaceResult F) := do
  requireAny app user requirements
  return result interfaceKey (← backendRaise (app.read (← call))) 200

/-- `guardedRead` cut to `limit` entries. -/
def guardedList (app : App F) (user : User) (arguments : Arguments F) (requirements : List (Str × Str × Str))
    (interfaceKey : Str) (call : Read F) : Except ExecError (AIAgentInterfaceResult F) := do
  requireAny app user requirements
  return result interfaceKey (← limitItems (← backendRaise (app.read call)) (argument arguments "limit")) 200

def stats (app : App F) (user : User) (_ : Arguments F) : Except ExecError (AIAgentInterfaceResult F) :=
  guardedRead app user [("dashboard", "view", "*"), ("analysis", "view", "*")] "stats" (return .stats)

/-- The view `analysis_context` (views/agent.py:981) called from within: its own check, then its
payload. -/
def analysisContextView (app : App F) (user : User) : Except ExecError (Value F) :=
  Except.mapError handleSlurmrestdErrors do
    if ← ruleRaise (anyAllowed app user [("analysis", "view", "*")]) then backendRaise (app.read .analysisContext)
    else .error (.http 403 "Access not permitted")

def analysisContext (app : App F) (user : User) (_ : Arguments F) : Except ExecError (AIAgentInterfaceResult F) := do
  requireAny app user [("analysis", "view", "*")]
  return result "analysis/context" (← analysisContextView app user) 200

/-- `_jobs` (:612) -/
def jobs (app : App F) (user : User) (arguments : Arguments F) : Except ExecError (AIAgentInterfaceResult F) := do
  let scope ← requirePermissionScope app user "jobs" "view"
  let node := argument arguments "node"
  let jobs ← backendRaise (app.read (
    if node.truthy then .jobsByNode node.toStr
    else if scope = "self" then .jobs user.login
    else .jobs none))
  let jobs ← if scope = "self" then pyRaise (filterJobs user.login jobs) else pure jobs
  return result "jobs" (← limitItems jobs (argument arguments "limit")) 200

/-- `_job` (:625) -/
def job (app : App F) (user : User) (arguments : Arguments F) : Except ExecError (AIAgentInterfaceResult F) := do
  let jobId ← intArgument arguments "job_id"
  let scope ← requirePermissionScope app user "jobs" "view"
  let jobData ← backendRaise (app.job jobId)
  if scope = "self" then do
    let owner ← pyRaise (jobOwner jobData)
    if ownedBy owner user.login then return result "job" jobData 200 else forbidden
  else return result "job" jobData 200

/-- `if not self._allowed(user, "jobs-history", "view", "*")`, then the store (:637, :665). -/
def historyRead (app : App F) (user : User) (interfaceKey : Str) (call : Except ExecError (Read F)) :
    Except ExecError (AIAgentInterfaceResult F) := do
  requirePermission app user "jobs-history" "view" "*"
  if !app.jobsStore then .error (.interface 501 "Job history persistence is disabled")
  else do return result interfaceKey (← backendRaise (app.read (← call))) 200

/-- `_jobs_history` (:636) -/
def jobsHistory (app : App F) (user : User) (arguments : Arguments F) : Except ExecError (AIAgentInterfaceResult F) :=
  historyRead app user "jobs/history" do
    let pageSize := (Value.lookup arguments "page_size").getD ((Value.lookup arguments "limit").getD (.int 50))
    let size ← pyRaise pageSize.toInt
    let plain := ["start".toList, "end", "keyword", "user", "account", "partition", "qos", "state",
      "job_id", "sort", "order"]
    return .jobHistory (plain.map (fun key => (key, argument arguments key)) ++
      [("page".toList, (Value.lookup arguments "page").getD (.int 1)),
        ("page_size".toList, .int (min (max size 1) 100))])

/-- `_job_history_detail` (:664); a missing record is the 404 of the store's answer `None`. -/
def jobHistoryDetail (app : App F) (user : User) (arguments : Arguments F) :
    Except ExecError (AIAgentInterfaceResult F) := do
  requirePermission app user "jobs-history" "view" "*"
  if !app.jobsStore then .error (.interface 501 "Job history persistence is disabled")
  else do
    let recordId ← intArgument arguments "record_id"
    let record ← backendRaise (app.read (.jobHistoryRecord recordId))
    if record.isNone then
      .error (.interface 404 ("Job history record ".toList ++ (toString recordId).toList ++ " not found".toList))
    else return result "jobs/history/detail" record 200

def nodes (app : App F) (user : User) (arguments : Arguments F) : Except ExecError (AIAgentInterfaceResult F) :=
  guardedList app user arguments [("resources", "view", "*")] "nodes" .nodes

def node (app : App F) (user : User) (arguments : Arguments F) : Except ExecError (AIAgentInterfaceResult F) :=
  guardedRead app user [("resources", "view", "*")] "node" (do return .node (← stringArgument arguments "name"))

/-- `if self.app.node_metrics_db is None` (:684, :697) -/
def metricsRead (app : App F) (arguments : Arguments F) (call : Str → Read F) : Except ExecError (Read F) :=
  if !app.nodeMetricsDb then .error (.interface 501 "Node real-time metrics is disabled")
  else do return call (← stringArgument arguments "name")

def nodeMetrics (app : App F) (user : User) (arguments : Arguments F) : Except ExecError (AIAgentInterfaceResult F) :=
  guardedRead app user [("resources", "view", "*")] "node/metrics" (metricsRead app arguments .nodeInstantMetrics)

def nodeMetricsHistory (app : App F) (user : User) (arguments : Arguments F) :
    Except ExecError (AIAgentInterfaceResult F) :=
  guardedRead app user [("resources", "view", "*")] "node/metrics/history"
    (metricsRead app arguments fun name =>
      .nodeHistoryMetrics name ((Value.lookup arguments "range").getD (.str "hour")))

def partitions (app : App F) (user : User) (_ : Arguments F) : Except ExecError (AIAgentInterfaceResult F) :=
  guardedRead app user [("jobs/filter-partitions", "view", "*"), ("resources/filter-partitions", "view", "*")]
    "partitions" (return .partitions)

def qos (app : App F) (user : User) (_ : Arguments F) : Except ExecError (AIAgentInterfaceResult F) :=
  guardedRead app user [("qos", "view", "*"), ("jobs/filter-qos", "view", "*")] "qos" (return .qos)

def reservations (app : App F) (user : User) (_ : Arguments F) : Except ExecError (AIAgentInterfaceResult F) :=
  guardedRead app user [("reservations", "view", "*")] "reservations" (return .reservations)

def accounts (app : App F) (user : User) (_ : Arguments F) : Except ExecError (AIAgentInterfaceResult F) :=
  guardedRead app user [("accounts", "view", "*"), ("jobs/filter-accounts", "view", "*")] "accounts" (return .accounts)

def account (app : App F) (user : User) (arguments : Arguments F) : Except ExecError (AIAgentInterfaceResult F) :=
  guardedRead app user [("accounts", "view", "*")] "account" (do return .account (← stringArgument arguments "name"))

def associations (app : App F) (user : User) (arguments : Arguments F) : Except ExecError (AIAgentInterfaceResult F) :=
  guardedList app user arguments [("accounts", "view", "*"), ("user/profile", "view", "*")] "associations" .associations

def users (app : App F) (user : User) (arguments : Arguments F) : Except ExecError (AIAgentInterfaceResult F) :=
  guardedList app user arguments [("users-admin", "view", "*")] "users" .users

def user (app : App F) (user : User) (arguments : Arguments F) : Except ExecError (AIAgentInterfaceResult F) :=
  guardedRead app user [("users-admin", "view", "*")] "user" (do return .user (← stringArgument arguments "name"))

/-- `_user_analysis_allowed` (:767) -/
def userAnalysisAllowed (app : App F) (user : User) (username : Str) : Except RuleError Bool :=
  anyAllowed app user ((if user.login =
    some username then [("user/analysis".toList, "view".toList, "self".toList)] else []) ++
    [("user/analysis".toList, "view".toList, "*".toList), ("jobs".toList, "view".toList, "*".toList)])

/-- `_user_tools_analysis_allowed` (:774) -/
def userToolsAnalysisAllowed (app : App F) (user : User) (username : Str) : Except RuleError Bool :=
  if user.login = some username then return true else userAnalysisAllowed app user username

/-- The window and the store both user interfaces read from (:783, :807). -/
def userMetricsRead (app : App F) (arguments : Arguments F) (interfaceKey : Str)
    (call : Option Int → Option Int → Read F) : Except ExecError (AIAgentInterfaceResult F) :=
  if !app.userMetricsEnabled || !app.userMetricsStore then .error (.interface 501 "User metrics is disabled")
  else do
    let start ← datetimeArgument app arguments "start"
    let stop ← datetimeArgument app arguments "end"
    return result interfaceKey (← backendRaise (app.read (call start stop))) 200

/-- `_user_metrics_history` (:779) -/
def userMetricsHistory (app : App F) (user : User) (arguments : Arguments F) :
    Except ExecError (AIAgentInterfaceResult F) := do
  let username ← stringArgument arguments "username"
  if ← ruleRaise (userAnalysisAllowed app user username) then
    userMetricsRead app arguments "user/metrics/history"
      (.userMetricsHistory username ((Value.lookup arguments "range").getD (.str "hour")))
  else forbidden

/-- `str(arguments.get("username") or self._user_login(user))`, `none` where both are empty. -/
def toolsUsername (user : User) (arguments : Arguments F) : Option Str :=
  if (argument arguments "username").truthy then some (argument arguments "username").toStr
  else user.login.filter (· ≠ [])

/-- `_user_tools_analysis` (:799) -/
def userToolsAnalysis (app : App F) (user : User) (arguments : Arguments F) :
    Except ExecError (AIAgentInterfaceResult F) :=
  match toolsUsername user arguments with
  | none => .error (.interface 400 "username is required")
  | some username => do
    if ← ruleRaise (userToolsAnalysisAllowed app user username) then
      userMetricsRead app arguments "user/tools/analysis" (.userToolAnalysis username)
    else forbidden

/-! ## Write interfaces (:822-994) -/

/-- `_authorize_job_write` (:822) -/
def authorizeJobWrite (app : App F) (user : User) (jobId : Int) (operation : Str) : Except ExecError Unit := do
  let scope ← requirePermissionScope app user "jobs" operation
  if scope = "*" then return ()
  else do
    let jobData ← backendRaise (app.job jobId)
    let owner ← pyRaise (jobOwner jobData)
    if ownedBy owner user.login then return () else forbidden

/-- The call of slurmrestd and its answer. -/
def perform (app : App F) (operation interfaceKey : Str) (statusCode : Nat) (target : Value F) (write : Write F) :
    Handler F (AIAgentInterfaceResult F) := do
  let response ← Prog.act write (backendRaise (app.write write))
  let payload ← Prog.check (normalizeOperationResult app operation target response)
  return result interfaceKey payload statusCode

/-- `_require_permission`, `_ensure_write_supported`, the arguments, the call. -/
def guardedWrite (app : App F) (user : User) (resource permission operation interfaceKey : Str) (statusCode : Nat)
    (request : Except ExecError (Value F × Write F)) : Handler F (AIAgentInterfaceResult F) := do
  let _ ← Prog.check (requirePermission app user resource permission "*")
  let _ ← Prog.check (ensureWriteSupported app operation)
  let (target, write) ← Prog.check request
  perform app operation interfaceKey statusCode target write

/-- `{key: name}` -/
def nameTarget (key name : Str) : Value F := .dict [(key, .str name)]

/-- A request addressed by the `name` argument alone. -/
def byName (arguments : Arguments F) (key : Str) (write : Str → Write F) : Except ExecError (Value F × Write F) := do
  let name ← stringArgument arguments "name"
  return (nameTarget key name, write name)

/-- A request addressed by the `name` argument, with a payload. -/
def byNamePayload (arguments : Arguments F) (key : Str) (write : Str → Value F → Write F) :
    Except ExecError (Value F × Write F) := do
  let name ← stringArgument arguments "name"
  let payload ← payloadArgument arguments
  return (nameTarget key name, write name (.dict payload))

/-- A request that is a payload. -/
def byPayload (arguments : Arguments F) (write : Value F → Write F) : Except ExecError (Value F × Write F) := do
  let payload ← payloadArgument arguments
  return (.none, write (.dict payload))

/-- `_job_submit` (:831) -/
def jobSubmit (app : App F) (user : User) (arguments : Arguments F) : Handler F (AIAgentInterfaceResult F) := do
  let _ ← Prog.check (requirePermissionScope app user "jobs" "edit")
  let _ ← Prog.check (ensureWriteSupported app "jobs.submit")
  let (target, write) ← Prog.check (byPayload arguments .jobSubmit)
  perform app "jobs.submit" "job/submit" 201 target write

/-- `_job_update` (:842) and `_job_cancel` (:853): the write check comes before the permission. -/
def jobWrite (app : App F) (user : User) (arguments : Arguments F) (permission operation interfaceKey : Str)
    (write : Int → Except ExecError (Write F)) : Handler F (AIAgentInterfaceResult F) := do
  let _ ← Prog.check (ensureWriteSupported app operation)
  let jobId ← Prog.check (intArgument arguments "job_id")
  let _ ← Prog.check (authorizeJobWrite app user jobId permission)
  let write ← Prog.check (write jobId)
  perform app operation interfaceKey 200 (.dict [("job_id", .int jobId)]) write

def jobUpdate (app : App F) (user : User) (arguments : Arguments F) : Handler F (AIAgentInterfaceResult F) :=
  jobWrite app user arguments "edit" "jobs.update" "job/update" fun jobId => do
    return .jobUpdate jobId (.dict (← payloadArgument arguments))

def jobCancel (app : App F) (user : User) (arguments : Arguments F) : Handler F (AIAgentInterfaceResult F) :=
  jobWrite app user arguments "delete" "jobs.cancel" "job/cancel" fun jobId =>
    return .jobCancel jobId (argument arguments "payload")

def nodeUpdate (app : App F) (user : User) (arguments : Arguments F) : Handler F (AIAgentInterfaceResult F) :=
  guardedWrite app user "resources" "edit" "resources.node.update" "node/update" 200
    (byNamePayload arguments "node" .nodeUpdate)

def nodeDelete (app : App F) (user : User) (arguments : Arguments F) : Handler F (AIAgentInterfaceResult F) :=
  guardedWrite app user "resources" "delete" "resources.node.delete" "node/delete" 200
    (byName arguments "node" .nodeDelete)

def reservationCreate (app : App F) (user : User) (arguments : Arguments F) : Handler F (AIAgentInterfaceResult F) :=
  guardedWrite app user "reservations" "edit" "reservations.create" "reservation/create" 201
    (byPayload arguments .reservationCreate)

def reservationUpdate (app : App F) (user : User) (arguments : Arguments F) : Handler F (AIAgentInterfaceResult F) :=
  guardedWrite app user "reservations" "edit" "reservations.update" "reservation/update" 200
    (byNamePayload arguments "reservation" .reservationUpdate)

def reservationDelete (app : App F) (user : User) (arguments : Arguments F) : Handler F (AIAgentInterfaceResult F) :=
  guardedWrite app user "reservations" "delete" "reservations.delete" "reservation/delete" 200
    (byName arguments "reservation" .reservationDelete)

def accountsUpdate (app : App F) (user : User) (arguments : Arguments F) : Handler F (AIAgentInterfaceResult F) :=
  guardedWrite app user "accounts" "edit" "accounts.update" "account/update" 200 do
    let payload ← validateAccountsPayload (← payloadArgument arguments)
    return (.none, .accountsUpdate (.dict payload))

def accountDelete (app : App F) (user : User) (arguments : Arguments F) : Handler F (AIAgentInterfaceResult F) :=
  guardedWrite app user "accounts" "delete" "accounts.delete" "account/delete" 200
    (byName arguments "account" .accountDelete)

def associationsUpdate (app : App F) (user : User) (arguments : Arguments F) : Handler F (AIAgentInterfaceResult F) :=
  guardedWrite app user "accounts" "edit" "accounts.associations.update" "association/update" 200
    (byPayload arguments .associationsUpdate)

def associationsDelete (app : App F) (user : User) (arguments : Arguments F) : Handler F (AIAgentInterfaceResult F) :=
  guardedWrite app user "accounts" "delete" "accounts.associations.delete" "association/delete" 200
    (byPayload arguments .associationsDelete)

def usersUpdate (app : App F) (user : User) (arguments : Arguments F) : Handler F (AIAgentInterfaceResult F) :=
  guardedWrite app user "users-admin" "edit" "users.update" "user/update" 200 (byPayload arguments .usersUpdate)

def userDelete (app : App F) (user : User) (arguments : Arguments F) : Handler F (AIAgentInterfaceResult F) :=
  guardedWrite app user "users-admin" "delete" "users.delete" "user/delete" 200 (byName arguments "user" .userDelete)

def qosUpdate (app : App F) (user : User) (arguments : Arguments F) : Handler F (AIAgentInterfaceResult F) :=
  guardedWrite app user "qos" "edit" "qos.update" "qos/update" 200 do
    let payload ← validateQosPayload (← payloadArgument arguments)
    return (.none, .qosUpdate (.dict payload))

def qosDelete (app : App F) (user : User) (arguments : Arguments F) : Handler F (AIAgentInterfaceResult F) :=
  guardedWrite app user "qos" "delete" "qos.delete" "qos/delete" 200 (byName arguments "qos" .qosDelete)

end Arguments

/-! ## The registry (:75-384, :1038) -/

/-- The keys of `_definitions`. -/
inductive Interface
  | stats | analysisContext | jobs | job | jobsHistory | jobHistoryDetail | nodes | node | nodeMetrics
  | nodeMetricsHistory | partitions | qos | reservations | accounts | account | associations | users | user
  | userMetricsHistory | userToolsAnalysis
  | jobSubmit | jobUpdate | jobCancel | nodeUpdate | nodeDelete | reservationCreate | reservationUpdate
  | reservationDelete | accountsUpdate | accountDelete | associationsUpdate | associationsDelete | usersUpdate
  | userDelete | qosUpdate | qosDelete
deriving DecidableEq, Repr

def Interface.key : Interface → Str
  | .stats => "stats"
  | .analysisContext => "analysis/context"
  | .jobs => "jobs"
  | .job => "job"
  | .jobsHistory => "jobs/history"
  | .jobHistoryDetail => "jobs/history/detail"
  | .nodes => "nodes"
  | .node => "node"
  | .nodeMetrics => "node/metrics"
  | .nodeMetricsHistory => "node/metrics/history"
  | .partitions => "partitions"
  | .qos => "qos"
  | .reservations => "reservations"
  | .accounts => "accounts"
  | .account => "account"
  | .associations => "associations"
  | .users => "users"
  | .user => "user"
  | .userMetricsHistory => "user/metrics/history"
  | .userToolsAnalysis => "user/tools/analysis"
  | .jobSubmit => "job/submit"
  | .jobUpdate => "job/update"
  | .jobCancel => "job/cancel"
  | .nodeUpdate => "node/update"
  | .nodeDelete => "node/delete"
  | .reservationCreate => "reservation/create"
  | .reservationUpdate => "reservation/update"
  | .reservationDelete => "reservation/delete"
  | .accountsUpdate => "account/update"
  | .accountDelete => "account/delete"
  | .associationsUpdate => "association/update"
  | .associationsDelete => "association/delete"
  | .usersUpdate => "user/update"
  | .userDelete => "user/delete"
  | .qosUpdate => "qos/update"
  | .qosDelete => "qos/delete"

variable [Python F]

/-- `definition.handler`; a read interface performs no action. -/
def Interface.handler (app : App F) (u : User) (arguments : Arguments F) :
    Interface → Handler F (AIAgentInterfaceResult F)
  | .stats => Prog.check (Assistant.stats app u arguments)
  | .analysisContext => Prog.check (Assistant.analysisContext app u arguments)
  | .jobs => Prog.check (Assistant.jobs app u arguments)
  | .job => Prog.check (Assistant.job app u arguments)
  | .jobsHistory => Prog.check (Assistant.jobsHistory app u arguments)
  | .jobHistoryDetail => Prog.check (Assistant.jobHistoryDetail app u arguments)
  | .nodes => Prog.check (Assistant.nodes app u arguments)
  | .node => Prog.check (Assistant.node app u arguments)
  | .nodeMetrics => Prog.check (Assistant.nodeMetrics app u arguments)
  | .nodeMetricsHistory => Prog.check (Assistant.nodeMetricsHistory app u arguments)
  | .partitions => Prog.check (Assistant.partitions app u arguments)
  | .qos => Prog.check (Assistant.qos app u arguments)
  | .reservations => Prog.check (Assistant.reservations app u arguments)
  | .accounts => Prog.check (Assistant.accounts app u arguments)
  | .account => Prog.check (Assistant.account app u arguments)
  | .associations => Prog.check (Assistant.associations app u arguments)
  | .users => Prog.check (Assistant.users app u arguments)
  | .user => Prog.check (Assistant.user app u arguments)
  | .userMetricsHistory => Prog.check (Assistant.userMetricsHistory app u arguments)
  | .userToolsAnalysis => Prog.check (Assistant.userToolsAnalysis app u arguments)
  | .jobSubmit => Assistant.jobSubmit app u arguments
  | .jobUpdate => Assistant.jobUpdate app u arguments
  | .jobCancel => Assistant.jobCancel app u arguments
  | .nodeUpdate => Assistant.nodeUpdate app u arguments
  | .nodeDelete => Assistant.nodeDelete app u arguments
  | .reservationCreate => Assistant.reservationCreate app u arguments
  | .reservationUpdate => Assistant.reservationUpdate app u arguments
  | .reservationDelete => Assistant.reservationDelete app u arguments
  | .accountsUpdate => Assistant.accountsUpdate app u arguments
  | .accountDelete => Assistant.accountDelete app u arguments
  | .associationsUpdate => Assistant.associationsUpdate app u arguments
  | .associationsDelete => Assistant.associationsDelete app u arguments
  | .usersUpdate => Assistant.usersUpdate app u arguments
  | .userDelete => Assistant.userDelete app u arguments
  | .qosUpdate => Assistant.qosUpdate app u arguments
  | .qosDelete => Assistant.qosDelete app u arguments

def Interface.all : List Interface := [.stats, .analysisContext, .jobs, .job, .jobsHistory, .jobHistoryDetail, .nodes,
  .node, .nodeMetrics, .nodeMetricsHistory, .partitions, .qos, .reservations, .accounts, .account, .associations,
  .users, .user, .userMetricsHistory, .userToolsAnalysis, .jobSubmit, .jobUpdate, .jobCancel, .nodeUpdate, .nodeDelete,
  .reservationCreate, .reservationUpdate, .reservationDelete, .accountsUpdate, .accountDelete, .associationsUpdate,
  .associationsDelete, .usersUpdate, .userDelete, .qosUpdate, .qosDelete]

/-- `self._definitions.get(interface_key)` -/
def Interface.ofKey (interfaceKey : Str) : Option Interface := Interface.all.find? (·.key == interfaceKey)

/-- `execute` (:1041) -/
def execute (app : App F) (u : User) (interfaceKey : Str) (arguments : Arguments F) :
    Handler F (AIAgentInterfaceResult F) :=
  match Interface.ofKey interfaceKey with
  | none => Prog.raise (.interface 400 ("Unsupported agent interface ".toList ++ interfaceKey))
  | some i => Prog.handle handleBackendError (i.handler app u arguments)

end SlurmWeb.Assistant
