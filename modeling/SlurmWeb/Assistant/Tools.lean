import SlurmWeb.Assistant.Interfaces
import SlurmWeb.Lib.Dict

/-!
# The tools of the assistant (slurmweb/ai/tools.py)

A tool call names an interface in one of three ways: through the generic query tool, through the
generic mutate tool, or by its own key. The registry runs the handler and writes an audit record.

| here | there |
| --- | --- |
| `resolveToolCall` | `_resolve_tool_call` (:56) |
| `AuditRecord` | `_record_tool_call` (:100) |
| `executeTool` | `execute` (:132) |
| `Interface.write` | the `write` flags of the registry (agent_interfaces.py:36-323) |
| `normalizeSingleQos`, `argumentsAfter` | `_normalize_single_qos` (slurmrestd/__init__.py:306), seen by its caller |

The client fills the `limits` of a QOS payload in place, so the record of such a call holds the filled
payload. Writing the record does not fail, and durations are left out.

* `handler_key` — a handler answers under its own key.
* `executeTool_audited` — one handler at most, by the right way, with one record that fits.
-/

namespace SlurmWeb.Assistant

open Strings Py

variable {F : Type} [Python F]

/-- `definition.write` -/
def Interface.write : Interface → Bool
  | .jobSubmit | .jobUpdate | .jobCancel | .nodeUpdate | .nodeDelete | .reservationCreate | .reservationUpdate
  | .reservationDelete | .accountsUpdate | .accountDelete | .associationsUpdate | .associationsDelete | .usersUpdate
  | .userDelete | .qosUpdate | .qosDelete => true
  | _ => false

/-! ## QOS payloads -/

/-- `_qos_limit` (slurmrestd/__init__.py:252) -/
def qosLimit : Value F → Value F
  | .dict limit => .dict limit
  | value => .dict [("set", .bool true), ("infinite", .bool false), ("number", value)]

/-- `_nested_dict(root, *keys)[key] = value` (:258) -/
def setNested (key : Str) (value : Value F) : List Str → Arguments F → Arguments F
  | [], root => Dict.put root key value
  | next :: keys, root =>
    let child := match argument root next with
      | .dict child => child
      | _ => []
    Dict.put root next (.dict (setNested key value keys child))

/-- `_has_limit` (:269) -/
def hasLimit : List Str → Value F → Bool
  | [], .dict limit => limit.any fun item => item.1 ∈ ["set".toList, "infinite", "number"]
  | key :: keys, .dict items => match Value.lookup items key with
    | some value => hasLimit keys value
    | none => false
  | _, _ => false

/-- `_pop_first` (:280), the value. -/
def popFirst (qos : Arguments F) (aliases : List Str) : Value F :=
  (aliases.filterMap (Value.lookup qos)).find? (!·.isBlank) |>.getD .none

/-- `_set_qos_limit_if_missing` (:288), on the `limits`. -/
def setLimitIfMissing (value : Value F) (default : Int) (parents : List Str) (key : Str)
    (limits : Arguments F) : Arguments F :=
  if hasLimit (parents ++ [key]) (.dict limits) then limits
  else setNested key (qosLimit (if value.isNone then .int default else value)) parents limits

/-- The `limits` of a QOS after `_normalize_single_qos` (:306). -/
def normalizeSingleQos (qos limits : Arguments F) : Arguments F :=
  let submit := popFirst qos ["max_submit_jobs_per_user", "MaxSubmitJobsPerUser", "maxSubmitJobsPerUser"]
  let jobs := popFirst qos ["max_jobs_per_user", "MaxJobsPerUser", "maxJobsPerUser"]
  let wall := popFirst qos ["max_wall_duration_per_job", "MaxWallDurationPerJob", "maxWallDurationPerJob"]
  let limits := setLimitIfMissing submit 100 ["max", "jobs", "per"] "user" limits
  let limits := setLimitIfMissing jobs 10 ["max", "jobs", "active_jobs", "per"] "user" limits
  setLimitIfMissing wall 8640 ["max", "wall_clock", "per"] "job" limits

/-- A QOS as its caller sees it afterwards: the copy is shallow, its `limits` are the caller's. -/
def qosAfter (qos : Arguments F) : Arguments F :=
  match argument qos "limits" with
  | .dict limits => Dict.put qos "limits" (.dict (normalizeSingleQos qos limits))
  | _ => qos

def entryAfter : Value F → Value F
  | .dict qos => .dict (qosAfter qos)
  | entry => entry

/-- A payload after `_normalize_qos_payload` (:357). -/
def qosPayloadAfter (payload : Arguments F) : Arguments F :=
  match argument payload "qos" with
  | .list entries => Dict.put payload "qos" (.list (entries.map entryAfter))
  | _ => qosAfter payload

/-- The arguments of a handler when it is through with them, given its writes. -/
def argumentsAfter (i : Option Interface) (arguments : Arguments F) (writes : List (Write F)) : Arguments F :=
  match i, writes, argument arguments "payload" with
  | some .qosUpdate, _ :: _, .dict payload => Dict.put arguments "payload" (.dict (qosPayloadAfter payload))
  | _, _, _ => arguments

/-! ## The registry -/

inductive ToolError
  /-- `AIToolPermissionError` -/
  | permission (message interfaceKey : Str) (statusCode : Nat)
  /-- `AIToolExecutionError` -/
  | execution (message : Str) (interfaceKey : Option Str) (statusCode : Option Nat)
  /-- Any other exception of a handler. -/
  | other (err : ExecError)

structure ToolCall (F : Type) where
  permission : Str
  interfaceKey : Str
  interfaceArguments : Value F

inductive AuditStatus
  | ok
  | error
deriving DecidableEq

/-- A row of `record_tool_call`. -/
structure AuditRecord (F : Type) where
  conversationId : Int
  messageId : Int
  username : Option Str
  toolName : Str
  permission : Str
  interfaceKey : Str
  statusCode : Option Nat
  inputPayload : Arguments F
  resultSummary : Option Str
  status : AuditStatus
  error : Option Str

structure ToolResult (F : Type) where
  toolName : Str
  permission : Str
  interfaceKey : Str
  arguments : Arguments F
  result : Value F
  resultSummary : Str
  statusCode : Nat

/-- What an execution does, in order. -/
inductive ToolEvent (F : Type)
  | ran (i : Interface) (arguments : Arguments F)
  | wrote (write : Write F)
  | recorded (record : AuditRecord F)

/-- A generic tool (:59, :72): it refuses the interfaces of the other kind. -/
def resolveGeneric (permission : Str) (refused : Bool) (reason : Str) (arguments : Arguments F) :
    Except ToolError (ToolCall F) :=
  let interfaceKey := (argument arguments "interface_key").strippedText
  match Interface.ofKey interfaceKey with
  | some i =>
    if i.write = refused then .error (.execution ("Interface ".toList ++ interfaceKey ++ reason) none none)
    else return ⟨permission, interfaceKey, (argument arguments "arguments").or (.dict [])⟩
  | none => return ⟨permission, interfaceKey, (argument arguments "arguments").or (.dict [])⟩

/-- The arguments of a call by key (:89): its own, or those wrapped under the same key. -/
def directArguments (toolName : Str) (arguments : Arguments F) : Arguments F :=
  match argument arguments "arguments" with
  | .dict wrapped => if (argument arguments "interface_key").strippedText = toolName then wrapped else arguments
  | _ => arguments

/-- `_resolve_tool_call` (:56) -/
def resolveToolCall (toolName : Str) (arguments : Arguments F) : Except ToolError (ToolCall F) :=
  let toolName := strip toolName
  if toolName = "query_agent_interface".toList then
    resolveGeneric "dynamic-query" true " is write-capable and must use mutate_agent_interface" arguments
  else if toolName = "mutate_agent_interface".toList then
    resolveGeneric "dynamic-mutate" false " is read-only and must use query_agent_interface" arguments
  else match Interface.ofKey toolName with
    | none => .error (.execution ("Unsupported tool ".toList ++ toolName) none none)
    | some i =>
      return ⟨if i.write then "dynamic-mutate" else "dynamic-query", toolName,
        .dict (directArguments toolName arguments)⟩

/-- `_truncate_text` (tools.py:12) -/
def truncated (limit : Nat) (value : Value F) : Str :=
  let text := Python.dumps value
  if text.length ≤ limit then text else text.take (limit - 3) ++ "...".toList

/-- Who calls, and where. -/
structure ToolContext (F : Type) where
  app : App F
  user : User
  conversationId : Int
  messageId : Int
  /-- `str(err)` -/
  errorText : ExecError → Str

section Execution

variable (ctx : ToolContext F)

/-- `self.interfaces.execute` (:145), with what it leaves of its arguments. -/
def runInterface (interfaceKey : Str) (arguments : Arguments F) :
    Except ExecError (AIAgentInterfaceResult F) × Arguments F × List (ToolEvent F) :=
  let (outcome, writes) := execute ctx.app ctx.user interfaceKey arguments []
  let ran := ((Interface.ofKey interfaceKey).map fun i => ToolEvent.ran i arguments).toList
  (outcome, argumentsAfter (Interface.ofKey interfaceKey) arguments writes, ran ++ writes.map .wrote)

/-- The record of a call, without its outcome. -/
def openRecord (toolName : Str) (call : ToolCall F) (input : Arguments F) : AuditRecord F where
  conversationId := ctx.conversationId
  messageId := ctx.messageId
  username := ctx.user.login
  toolName := toolName
  permission := call.permission
  interfaceKey := if call.interfaceKey = [] then toolName else call.interfaceKey
  statusCode := none
  inputPayload := input
  resultSummary := none
  status := .error
  error := none

/-- The record and the outcome of a call (:148-217). -/
def concludeCall (toolName : Str) (call : ToolCall F) (input : Arguments F) :
    Except ExecError (AIAgentInterfaceResult F) → Except ToolError (ToolResult F) × AuditRecord F
  | .ok result =>
    (.ok { toolName, permission := call.permission, interfaceKey := result.interfaceKey, arguments := input
           result := result.payload, resultSummary := truncated 2400 result.payload, statusCode := result.statusCode },
      { openRecord ctx toolName call input with
        interfaceKey := result.interfaceKey, statusCode := some result.statusCode
        resultSummary := some (truncated 1200 result.payload), status := .ok })
  | .error (.interface status message) =>
    (.error (if status = 403 then .permission message call.interfaceKey status
        else .execution message (some call.interfaceKey) (some status)),
      { openRecord ctx toolName call input with statusCode := some status, error := some message })
  | .error err => (.error (.other err), { openRecord ctx toolName call input with error := some (ctx.errorText err) })

/-- `interface_arguments`, or `{}` when they are no `dict` (:138). -/
def ToolCall.input (call : ToolCall F) : Arguments F :=
  match call.interfaceArguments with
  | .dict arguments => arguments
  | _ => []

/-- `execute` (:132) -/
def executeTool (toolName : Str) (arguments : Arguments F) : Prog ToolError (ToolEvent F) (ToolResult F) := fun log =>
  match resolveToolCall toolName arguments with
  | .error err => (.error err, log)
  | .ok call =>
    if call.interfaceKey = [] then
      (.error (.execution "interface_key is required" none none),
        log ++ [.recorded { openRecord ctx toolName call call.input with error := some "interface_key is required" }])
    else
      let (outcome, input, events) := runInterface ctx call.interfaceKey call.input
      let (result, record) := concludeCall ctx toolName call input outcome
      (result, log ++ events ++ [.recorded record])

end Execution

/-! ## A handler answers under its own key -/

/-- The results of an interface. -/
abbrev OfKey (key : Str) (result : AIAgentInterfaceResult F) : Prop := result.interfaceKey = key

section Keys

open Except (Yields)

variable (app : App F) (u : User) (arguments : Arguments F)

theorem guardedRead_key (requirements : List (Str × Str × Str)) (key : Str) (call : Except ExecError (Read F)) :
    Yields (OfKey key) (guardedRead app u requirements key call) := .bind fun _ => .bind fun _ => .bind fun _ => .ok rfl

theorem guardedList_key (requirements : List (Str × Str × Str)) (key : Str) (call : Read F) :
    Yields (OfKey key) (guardedList app u arguments requirements key call) :=
  .bind fun _ => .bind fun _ => .bind fun _ => .ok rfl

theorem userMetricsRead_key (key : Str) (call : Option Int → Option Int → Read F) :
    Yields (OfKey key) (userMetricsRead app arguments key call) :=
  .ite .error (.bind fun _ => .bind fun _ => .bind fun _ => .ok rfl)

theorem perform_key (operation key : Str) (statusCode : Nat) (target : Value F) (write : Write F) :
    (perform app operation key statusCode target write).Yields (OfKey key) := by
  refine .bind fun response => .bind fun payload => ?_
  rintro log a ⟨⟩
  rfl

theorem guardedWrite_key (resource permission operation key : Str) (statusCode : Nat)
    (request : Except ExecError (Value F × Write F)) :
    (guardedWrite app u resource permission operation key statusCode request).Yields (OfKey key) :=
  .bind fun _ => .bind fun _ => .bind fun _ => perform_key app operation key _ _ _

theorem jobWrite_key (permission operation key : Str) (write : Int → Except ExecError (Write F)) :
    (jobWrite app u arguments permission operation key write).Yields (OfKey key) :=
  .bind fun _ => .bind fun _ => .bind fun _ => .bind fun _ => perform_key app operation key _ _ _

theorem analysisContext_key : Yields (OfKey "analysis/context") (analysisContext app u arguments) :=
  .bind fun _ => .bind fun _ => .ok rfl

theorem jobs_key : Yields (OfKey "jobs") (jobs app u arguments) := by
  refine .bind fun scope => .bind fun found => ?_
  dsimp only
  split <;> exact .bind fun _ => .bind fun _ => .ok rfl

theorem job_key : Yields (OfKey "job") (job app u arguments) := by
  refine .bind fun jobId => .bind fun scope => .bind fun jobData => .ite (.bind fun owner => ?_) (.ok rfl)
  exact .ite (.ok rfl) .error

theorem jobsHistory_key : Yields (OfKey "jobs/history") (jobsHistory app u arguments) :=
  .bind fun _ => .ite .error (.bind fun _ => .bind fun _ => .ok rfl)

theorem jobHistoryDetail_key : Yields (OfKey "jobs/history/detail") (jobHistoryDetail app u arguments) :=
  .bind fun _ => .ite .error (.bind fun _ => .bind fun _ => .ite .error (.ok rfl))

theorem userMetricsHistory_key : Yields (OfKey "user/metrics/history") (userMetricsHistory app u arguments) :=
  .bind fun _ => .bind fun _ => .ite (userMetricsRead_key app arguments _ _) .error

theorem userToolsAnalysis_key : Yields (OfKey "user/tools/analysis") (userToolsAnalysis app u arguments) := by
  unfold userToolsAnalysis
  split
  · exact .error
  · exact .bind fun _ => .ite (userMetricsRead_key app arguments _ _) .error

theorem jobSubmit_key : (jobSubmit app u arguments).Yields (OfKey "job/submit") :=
  .bind fun _ => .bind fun _ => .bind fun _ => perform_key app _ _ _ _ _

/-- A handler answers under its own key. -/
theorem handler_key (i : Interface) : (i.handler app u arguments).Yields (OfKey i.key) := by
  have hread : ∀ {key : Str} {x : Except ExecError (AIAgentInterfaceResult F)}, Yields (OfKey key) x →
      Prog.Yields (OfKey key) (Prog.check x : Handler F (AIAgentInterfaceResult F)) := fun h _ => h
  cases i with
  | stats | partitions | qos | reservations | accounts | node | account | user | nodeMetrics | nodeMetricsHistory =>
    exact hread (guardedRead_key app u _ _ _)
  | nodes | associations | users => exact hread (guardedList_key app u arguments _ _ _)
  | analysisContext => exact hread (analysisContext_key app u arguments)
  | jobs => exact hread (jobs_key app u arguments)
  | job => exact hread (job_key app u arguments)
  | jobsHistory => exact hread (jobsHistory_key app u arguments)
  | jobHistoryDetail => exact hread (jobHistoryDetail_key app u arguments)
  | userMetricsHistory => exact hread (userMetricsHistory_key app u arguments)
  | userToolsAnalysis => exact hread (userToolsAnalysis_key app u arguments)
  | jobSubmit => exact jobSubmit_key app u arguments
  | jobUpdate | jobCancel => exact jobWrite_key app u arguments _ _ _ _
  | _ => exact guardedWrite_key app u _ _ _ _ _ _

end Keys

/-! ## What a record says -/

/-- The handler runs of an execution, with their arguments. -/
def runs (events : List (ToolEvent F)) : List (Interface × Arguments F) :=
  events.filterMap fun
    | .ran i arguments => some (i, arguments)
    | _ => none

def records (events : List (ToolEvent F)) : List (AuditRecord F) :=
  events.filterMap fun
    | .recorded record => some record
    | _ => none

/-- A QOS payload with `limits` for the client to fill. -/
def HasLimits (i : Interface) (arguments : Arguments F) : Prop :=
  i = .qosUpdate ∧ ∃ payload, argument arguments "payload" = .dict payload ∧
    ∃ qos limits, .dict qos ∈ payloadEntries payload "qos" ∧ argument qos "limits" = .dict limits

omit [Python F] in
theorem put_lookup {items : Arguments F} {key : Str} {value : Value F} (h : Value.lookup items key = some value) :
    Dict.put items key value = items := by
  induction items with
  | nil => cases h
  | cons item items ih =>
    obtain ⟨k, v⟩ := item
    rw [Value.lookup] at h
    rw [Dict.put]
    split at h
    next hk =>
      cases h
      rw [if_pos hk]
    next hk => rw [if_neg hk, ih h]

omit [Python F] in
theorem lookup_of_argument {items : Arguments F} {key : Str} {value : Value F} (h : argument items key = value)
    (hne : value ≠ .none) : Value.lookup items key = some value := by
  rw [argument] at h
  cases hl : Value.lookup items key with
  | none =>
    rw [hl] at h
    exact absurd h.symm hne
  | some found =>
    rw [hl] at h
    rw [← h]
    rfl

omit [Python F] in
theorem qosAfter_eq {qos : Arguments F} (h : ∀ limits, argument qos "limits" ≠ .dict limits) : qosAfter qos = qos := by
  unfold qosAfter
  split
  next limits hlimits => exact absurd hlimits (h limits)
  next => rfl

omit [Python F] in
/-- Without `limits` the handler leaves its arguments as they were. -/
theorem argumentsAfter_eq {i : Option Interface} {arguments : Arguments F} {writes : List (Write F)}
    (h : ∀ i', i = some i' → ¬ HasLimits i' arguments) : argumentsAfter i arguments writes = arguments := by
  unfold argumentsAfter
  split
  next payload hpayload =>
    have hnone : ∀ qos limits, .dict qos ∈ payloadEntries payload "qos" → argument qos "limits" ≠ .dict limits :=
      fun qos limits hqos hlimits => h .qosUpdate rfl ⟨rfl, payload, hpayload, qos, limits, hqos, hlimits⟩
    have hafter : qosPayloadAfter payload = payload := by
      unfold qosPayloadAfter
      unfold payloadEntries at hnone
      split
      next entries hentries =>
        rw [hentries] at hnone
        have hsame : entries.map entryAfter = entries := by
          conv_rhs => rw [← List.map_id entries]
          refine List.map_congr_left fun entry hentry => ?_
          cases entry with
          | dict qos => exact congrArg Value.dict (qosAfter_eq fun limits => hnone qos limits hentry)
          | _ => rfl
        rw [hsame]
        exact put_lookup (lookup_of_argument hentries (by simp))
      next hentries =>
        refine qosAfter_eq fun limits => hnone payload limits ?_
        split
        next entries hlist => exact absurd hlist (hentries entries)
        next => exact List.mem_singleton_self _
    rw [hafter]
    exact put_lookup (lookup_of_argument hpayload (by simp))
  next => rfl

theorem ofKey_key {key : Str} {i : Interface} (h : Interface.ofKey key = some i) : i.key = key :=
  eq_of_beq (@List.find?_some _ (fun j : Interface => j.key == key) _ _ h)

theorem resolveGeneric_ok {permission reason : Str} {refused : Bool} {arguments : Arguments F} {call : ToolCall F}
    (h : resolveGeneric permission refused reason arguments = .ok call) : call.permission = permission ∧
      ∀ i, Interface.ofKey call.interfaceKey = some i → i.write ≠ refused := by
  unfold resolveGeneric at h
  dsimp only at h
  split at h
  next i hi =>
    split at h
    next => cases h
    next hkind =>
      cases h
      refine ⟨rfl, fun i' hi' => ?_⟩
      rw [hi] at hi'
      cases hi'
      exact hkind
  next hnone =>
    cases h
    refine ⟨rfl, fun i hi => ?_⟩
    rw [hnone] at hi
    cases hi

/-- The interface a call resolves to is of the kind its label says, and a write one is named by the mutate
tool or by its key. -/
theorem resolveToolCall_kind {toolName : Str} {arguments : Arguments F} {call : ToolCall F}
    (h : resolveToolCall toolName arguments = .ok call) {i : Interface}
      (hi : Interface.ofKey call.interfaceKey = some i) :
    (call.permission = "dynamic-mutate".toList ↔ i.write = true) ∧
      (i.write = true → (strip toolName = "mutate_agent_interface".toList ∨ strip toolName = i.key) ∧
        strip toolName ≠ "query_agent_interface".toList) := by
  unfold resolveToolCall at h
  dsimp only at h
  split at h
  next hquery =>
    obtain ⟨hpermission, hkind⟩ := resolveGeneric_ok h
    have hread : i.write = false := by simpa using hkind i hi
    rw [hpermission, hread]
    exact ⟨iff_of_false (by decide) (by simp), fun hwrite => by cases hwrite⟩
  next hquery =>
    split at h
    next hmutate =>
      obtain ⟨hpermission, hkind⟩ := resolveGeneric_ok h
      have hwrite : i.write = true := by simpa using hkind i hi
      exact ⟨iff_of_true hpermission hwrite, fun _ => ⟨.inl hmutate, hquery⟩⟩
    next =>
      split at h
      next => cases h
      next i' hi' =>
        cases h
        rw [show Interface.ofKey _ = some i from hi] at hi'
        cases hi'
        refine ⟨?_, fun _ => ⟨.inr (ofKey_key hi).symm, hquery⟩⟩
        dsimp only
        cases i.write with
        | true => exact iff_of_true rfl rfl
        | false => exact iff_of_false (by decide) (by simp)

/-- What an execution leaves of its events: one handler at most, let through for what it is, and for a run
one record of it. -/
structure Audited (ctx : ToolContext F) (toolName : Str) (events : List (ToolEvent F)) : Prop where
  once : (runs events).length ≤ 1
  write : ∀ i arguments, (i, arguments) ∈ runs events → i.write = true →
    (strip toolName = "mutate_agent_interface".toList ∨ strip toolName = i.key) ∧
      strip toolName ≠ "query_agent_interface".toList
  recorded : ∀ i arguments, (i, arguments) ∈ runs events → ∃ record, records events = [record] ∧
    record.interfaceKey = i.key ∧ (record.permission = "dynamic-mutate".toList ↔ i.write = true) ∧
      (¬ HasLimits i arguments → record.inputPayload = arguments) ∧
      (record.status = .ok ↔ ∃ result, (i.handler ctx.app ctx.user arguments []).1 = .ok result)

omit [Python F] in
theorem runs_append (a b : List (ToolEvent F)) : runs (a ++ b) = runs a ++ runs b := List.filterMap_append

omit [Python F] in
theorem records_append (a b : List (ToolEvent F)) : records (a ++ b) = records a ++ records b := List.filterMap_append

omit [Python F] in
theorem runs_wrote (writes : List (Write F)) : runs (writes.map ToolEvent.wrote) = [] := by
  rw [runs, List.filterMap_map]
  exact List.filterMap_eq_nil_iff.2 fun _ _ => rfl

omit [Python F] in
theorem records_wrote (writes : List (Write F)) : records (writes.map ToolEvent.wrote) = [] := by
  rw [records, List.filterMap_map]
  exact List.filterMap_eq_nil_iff.2 fun _ _ => rfl

/-- The record of a call is that of its outcome. -/
theorem concludeCall_record (ctx : ToolContext F) (toolName : Str) {call : ToolCall F} (hkey : call.interfaceKey ≠ [])
    (input : Arguments F) {outcome : Except ExecError (AIAgentInterfaceResult F)}
    (houtcome : ∀ result, outcome = .ok result → result.interfaceKey = call.interfaceKey) :
    (concludeCall ctx toolName call input outcome).2.interfaceKey = call.interfaceKey ∧
      (concludeCall ctx toolName call input outcome).2.permission = call.permission ∧
      (concludeCall ctx toolName call input outcome).2.inputPayload = input ∧
      ((concludeCall ctx toolName call input outcome).2.status = .ok ↔ ∃ result, outcome = .ok result) := by
  have hopen : (openRecord ctx toolName call input).interfaceKey = call.interfaceKey := if_neg hkey
  cases outcome with
  | ok result => exact ⟨houtcome result rfl, rfl, rfl, iff_of_true rfl ⟨result, rfl⟩⟩
  | error err =>
    have hstatus : ¬ ∃ result : AIAgentInterfaceResult F, Except.error err = .ok result := by
      rintro ⟨_, h⟩
      cases h
    cases err with
    | interface => exact ⟨hopen, rfl, rfl, iff_of_false (by simp [concludeCall, openRecord]) hstatus⟩
    | _ => exact ⟨hopen, rfl, rfl, iff_of_false (by simp [concludeCall, openRecord]) hstatus⟩

/-- Nothing ran: the events are audited whatever was recorded. -/
theorem Audited.of_no_run {ctx : ToolContext F} {toolName : Str} {events : List (ToolEvent F)}
    (h : runs events = []) : Audited ctx toolName events where
  once := by rw [h]; exact Nat.zero_le 1
  write i arguments hmem := by rw [h] at hmem; cases hmem
  recorded i arguments hmem := by rw [h] at hmem; cases hmem

/-- The events of a call whose interface is registered. -/
theorem runInterface_some (ctx : ToolContext F) {interfaceKey : Str} {i : Interface}
    (h : Interface.ofKey interfaceKey = some i) (arguments : Arguments F) :
    runInterface ctx interfaceKey arguments =
      ((Prog.handle handleBackendError (i.handler ctx.app ctx.user arguments) []).1,
        argumentsAfter (some i) arguments (i.handler ctx.app ctx.user arguments []).2,
        .ran i arguments :: (i.handler ctx.app ctx.user arguments []).2.map .wrote) := by
  rw [runInterface, execute, h, ← Prog.handle_log handleBackendError]
  rfl

theorem runInterface_none (ctx : ToolContext F) {interfaceKey : Str} (h : Interface.ofKey interfaceKey = none)
    (arguments : Arguments F) : runs (runInterface ctx interfaceKey arguments).2.2 = [] := by
  rw [runInterface, execute, h]
  rfl

/-- A call whose interface is registered leaves its run, the writes of it, and the record. -/
theorem audited_run (ctx : ToolContext F) {toolName : Str} {arguments : Arguments F} {call : ToolCall F} {i : Interface}
    (hcall : resolveToolCall toolName arguments = .ok call) (hkey : call.interfaceKey ≠ [])
    (hi : Interface.ofKey call.interfaceKey = some i) :
    Audited ctx toolName ((runInterface ctx call.interfaceKey call.input).2.2 ++
      [.recorded (concludeCall ctx toolName call (runInterface ctx call.interfaceKey call.input).2.1
        (runInterface ctx call.interfaceKey call.input).1).2]) := by
  have hkind := resolveToolCall_kind hcall hi
  have hname := ofKey_key hi
  rw [runInterface_some ctx hi]
  dsimp only
  generalize hwrites : (i.handler ctx.app ctx.user call.input []).2 = writes
  set outcome := (Prog.handle handleBackendError (i.handler ctx.app ctx.user call.input) []).1 with houtcome
  have hanswers : ∀ result, outcome = .ok result → result.interfaceKey = call.interfaceKey := fun result h =>
    ((handler_key ctx.app ctx.user call.input i).handle [] result h).trans hname
  obtain ⟨hrecordKey, hpermission, hinput, hstatus⟩ :=
    concludeCall_record ctx toolName hkey (argumentsAfter (some i) call.input writes) hanswers
  set record := (concludeCall ctx toolName call (argumentsAfter (some i) call.input writes) outcome).2
  have hruns : runs ((.ran i call.input :: writes.map .wrote) ++ [.recorded record]) = [(i, call.input)] := by
    rw [runs_append, show runs (.ran i call.input :: writes.map ToolEvent.wrote) = (i, call.input) ::
      runs (writes.map .wrote) from rfl, runs_wrote]
    rfl
  have hrecords : records ((.ran i call.input :: writes.map .wrote) ++ [.recorded record]) = [record] := by
    rw [records_append, show records (.ran i call.input :: writes.map ToolEvent.wrote) = records (writes.map .wrote)
      from rfl, records_wrote]
    rfl
  refine ⟨by rw [hruns]; exact le_rfl, fun i' arguments' hmem => ?_, fun i' arguments' hmem => ?_⟩
  · rw [hruns, List.mem_singleton] at hmem
    cases hmem
    exact hkind.2
  · rw [hruns, List.mem_singleton] at hmem
    cases hmem
    refine ⟨record, hrecords, hrecordKey.trans hname.symm, by rw [hpermission]; exact hkind.1, fun hlimits => ?_, ?_⟩
    · refine hinput.trans (argumentsAfter_eq fun i' hi' => ?_)
      cases hi'
      exact hlimits
    · exact hstatus.trans (Prog.handle_ok_iff _ _ _)

/-- **Every execution is audited.** -/
theorem executeTool_audited (ctx : ToolContext F) (toolName : Str) (arguments : Arguments F)
    (log : List (ToolEvent F)) :
    ∃ events, (executeTool ctx toolName arguments log).2 = log ++ events ∧ Audited ctx toolName events := by
  unfold executeTool
  cases hcall : resolveToolCall toolName arguments with
  | error err => exact ⟨[], (List.append_nil log).symm, .of_no_run rfl⟩
  | ok call =>
    dsimp only
    split
    next => exact ⟨_, rfl, .of_no_run rfl⟩
    next hkey =>
      refine ⟨_, List.append_assoc _ _ _, ?_⟩
      cases hi : Interface.ofKey call.interfaceKey with
      | none =>
        refine .of_no_run ?_
        rw [runs_append, runInterface_none ctx hi]
        rfl
      | some i => exact audited_run ctx hcall hkey hi

/-- A name with blanks around it is neither the mutate tool nor the key. -/
theorem padded_name_writes :
    ¬ ∀ (ctx : ToolContext ℚ) (toolName : Str) (arguments : Arguments ℚ) (i : Interface) (input : Arguments ℚ),
      (i, input) ∈ runs (executeTool ctx toolName arguments []).2 → i.write = true →
        toolName = "mutate_agent_interface".toList ∨ toolName = i.key := by
  intro h
  have hrun := h ⟨emptyCluster, .authenticated "alice" [], 1, 1, fun _ => []⟩ " job/cancel " [] .jobCancel [] ?_ rfl
  · revert hrun
    decide
  · rw [executeTool, show resolveToolCall " job/cancel " ([] : Arguments ℚ) =
        .ok ⟨"dynamic-mutate", "job/cancel", .dict []⟩ from rfl]
    exact List.mem_cons_self

end SlurmWeb.Assistant
