import SlurmWeb.Lib.PyValue

/-!
# Job rows from slurmrestd payloads (slurmweb/persistence/jobs_store.py)

A job of slurmrestd is a decoded JSON object of which nothing is known. `extract` reads a row from
a listed job, `extractDetail` from the details of one job, with a stored record behind it for what
the details leave out. Each helper raises where the source's does.

| here | there |
| --- | --- |
| `stateStr` .. `exitStr` | `_state_str` .. `_exit_str` (:178-203) |
| `intField`, `floatField`, `ts` | :289-312, :348 |
| `maxMemoryGb`, `usageStats` | :376-528 |
| `extract`, `extractDetail` | :531, :569 |

* `extractDetail_returns_iff` — `_extract_detail` returns exactly on the `WellFormed` payloads, whatever the
  stored record.
* `extractDetail_spec` — what the key fields and the usage fields of its row are.
-/

namespace SlurmWeb.Jobs

open Strings Py

/-- A UTC `datetime`, in microseconds since the epoch. -/
abbrev DateTime : Type := Int

variable {F : Type}

abbrev Payload (F : Type) : Type := List (Str × Value F)

/-- A job row, as `_extract` builds it and the history table stores it. -/
structure Row (F : Type) where
  jobId : Value F
  jobName : Value F
  jobState : Option Str
  stateReason : Value F
  userName : Value F
  userId : Option Int
  account : Value F
  group : Value F
  partition : Value F
  qos : Value F
  nodes : Value F
  nodeCount : Option Int
  cpus : Option Int
  priority : Option Int
  tresReqStr : Option Str
  tresPerJob : Option Str
  tresPerNode : Option Str
  gresDetail : Option Str
  tresRequested : Option (List (Value F))
  tresAllocated : Option (List (Value F))
  submitTime : Option DateTime
  startTime : Option DateTime
  endTime : Option DateTime
  eligibleTime : Option DateTime
  lastSchedEvaluationTime : Option DateTime
  timeLimitMinutes : Option Int
  usedMemoryGb : Option F
  usageStats : Option (Value F)
  usedCpuCoresAvg : Option F
  exitCode : Option Str
  workingDirectory : Value F
  command : Value F

variable [Python F]

/-! ## Texts (:178-203) -/

/-- `_state_str` (:178) -/
def stateStr : Value F → Except Py.Error (Option Str)
  | .list items =>
    let states := items.filter Value.truthy
    if states.isEmpty then return none else do return some (← Value.join "," states)
  | value => return if value.isBlank then none else some value.toStr

/-- `str(value) if value else None` -/
def textOrNone (value : Value F) : Option Str := if value.truthy then some value.toStr else none

/-- `_tres_str` (:187) -/
def tresStr : Value F → Option Str
  | .dict items => some (",".toList.intercalate (items.map fun item => item.1 ++ "=".toList ++ item.2.toStr))
  | value => textOrNone value

/-- `_gres_str` (:193) -/
def gresStr : Value F → Except Py.Error (Option Str)
  | .list [] => return none
  | .list items => do return some (← Value.join "," items)
  | value => return textOrNone value

/-- `_exit_str` (:199) -/
def exitStr : Value F → Option Str
  | .dict items => some (Python.dumps (.dict items))
  | .list items => some (Python.dumps (.list items))
  | value => textOrNone value

/-! ## Numbers (:289-312, :348) -/

/-- What `_int_field` and `_float_field` convert; `none` for a number that is unset or infinite. -/
def fieldNumber : Value F → Option (Value F)
  | .dict items =>
    if !(Value.getOr items "set" (.bool true)).truthy then none
    else if (Value.getOr items "infinite" (.bool false)).truthy then none
    else some (Value.get items "number")
  | value => some value

/-- `_int_field` (:289) -/
def intField (value : Value F) : Except Py.Error (Option Int) :=
  match fieldNumber value with
  | none | some .none => return none
  | some number => Py.orElse (number.toInt.map some) none

/-- `_float_field` (:302) -/
def floatField (value : Value F) : Except Py.Error (Option F) :=
  match fieldNumber value with
  | none | some .none => return none
  | some number => Py.orElse (number.toFloat.map some) none

/-- `datetime.fromtimestamp(n, tz=timezone.utc)` of a positive `n`; years end with 9999. -/
def fromTimestamp (n : Int) : Option DateTime := if n ≤ 253402300799 then some (n * 1000000) else none

/-- `_ts` (:348) -/
def ts (value : Value F) : Except Py.Error (Option DateTime) :=
  let number : Value F := match value with
    | .dict items => if !(Value.getOr items "set" (.bool true)).truthy then .none else Value.get items "number"
    | value => value
  if number.isBlank then return none
  else do
    let n ← Py.orElse (number.toInt.map some) none
    return n.bind fun n => if n ≤ 0 then none else fromTimestamp n

/-- `_tres_json` (:370) -/
def tresJson : Value F → Option (List (Value F))
  | .list items => some items
  | _ => none

/-- `_time_value` (:374) -/
def timeValue (timeData : Value F) (key : Str) (fallback : Value F) : Value F :=
  match timeData with
  | .dict items => Value.getOr items key fallback
  | _ => fallback

/-! ## Usage (:380-528) -/

/-- The items of a `dict`, none of another value. -/
def dictItems : Value F → List (Str × Value F)
  | .dict items => items
  | _ => []

def listItems : Value F → List (Value F)
  | .list items => items
  | _ => []

/-- `_step_tres_values` (:380): every level that is not of the expected type counts as empty. -/
def stepTresValues (step : Value F) (section_ bucket : Str) : List (Value F) :=
  listItems (Value.get (dictItems (Value.get (dictItems (Value.get (dictItems step) "tres")) section_)) bucket)

/-- The loop of `_extract_step_tres_count` (:396). -/
def tresCount (tresType : Str) : List (Value F) → Except Py.Error (Option F)
  | [] => return none
  | tres :: values =>
    if (Value.get (dictItems tres) "type").isStr tresType then do
      match ← floatField (Value.get (dictItems tres) "count") with
      | some count => if Python.lt count (Python.literal 0) then tresCount tresType values else return some count
      | none => tresCount tresType values
    else tresCount tresType values

def extractStepTresCount (step : Value F) (section_ bucket tresType : Str) : Except Py.Error (Option F) :=
  tresCount tresType (stepTresValues step section_ bucket)

/-- One of the two loops of `_max_memory_gb` (:411, :420). -/
def maxStepMemory (section_ : Str) : Option F → List (Value F) → Except Py.Error (Option F)
  | maximum, [] => return maximum
  | maximum, step :: steps => do
    let count ← extractStepTresCount step section_ "max" "mem"
    maxStepMemory section_ (match maximum, count with
      | some m, some c => if Python.lt m c then some c else some m
      | none, count => count
      | maximum, none => maximum) steps

/-- `for step in job.get("steps", [])` -/
def jobSteps (job : Payload F) : Except Py.Error (List (Value F)) := (Value.getOr job "steps" (.list [])).iterate

/-- `_max_memory_gb` (:407) -/
def maxMemoryGb (job : Payload F) : Except Py.Error (Option F × Option Str) := do
  let steps ← jobSteps job
  match ← maxStepMemory "consumed" none steps with
  | some bytes => return (some (Python.div bytes (Python.literal (1024 ^ 3))), some "consumed.max.mem")
  | none =>
    match ← maxStepMemory "requested" none steps with
    | some bytes => return (some (Python.div bytes (Python.literal (1024 ^ 3))), some "requested.max.mem")
    | none => return (none, none)

/-- `float(x or 0)` of an optional float. -/
def orZero (x : Option F) : F := match x with
  | some x => if Python.floatTruthy x then x else Python.literal 0
  | none => Python.literal 0

/-- `_step_total_cpu_seconds` (:433) -/
def stepTotalCpuSeconds (step : Value F) : Except Py.Error (Option F) :=
  match step with
  | .dict items =>
    match Value.getOr items "time" (.dict []) with
    | .dict timeData =>
      match Value.getOr timeData "total" (.dict []) with
      | .dict total => do
        let seconds ← floatField (Value.get total "seconds")
        let microseconds ← floatField (Value.get total "microseconds")
        return if seconds.isNone && microseconds.isNone then none
          else some (Python.add (orZero seconds) (Python.div (orZero microseconds) (Python.literal 1000000)))
      | _ => return none
    | _ => return none
  | _ => return none

/-- `_step_elapsed_seconds` (:449); the time of a step is used without a look at its type. -/
def stepElapsedSeconds (step : Value F) : Except Py.Error (Option F) :=
  match step with
  | .dict items =>
    match Value.getOr items "time" (.dict []) with
    | .dict timeData => do
      let elapsed ← floatField (Value.get timeData "elapsed")
      return elapsed.filter fun x => !Python.le x (Python.literal 0)
    | _ => .error .attributeError
  | _ => return none

/-- `_step_identifier` (:458) and `_step_name` (:465) -/
def stepField (key : Str) (step : Value F) : Except Py.Error (Value F) :=
  match step with
  | .dict items =>
    match Value.getOr items "step" (.dict []) with
    | .dict info => return Value.get info key
    | _ => return .none
  | _ => .error .attributeError

def stepIdentifier (step : Value F) : Except Py.Error (Value F) := stepField "id" step

def stepName (step : Value F) : Except Py.Error (Value F) := stepField "name" step

/-- `_include_cpu_step` (:472) -/
def includeCpuStep (step : Value F) : Except Py.Error Bool := do
  let stepId := (← stepIdentifier step).or (.str [])
  let stepName := (← stepName step).or (.str [])
  if stepName.isStr "extern" then return false
  else match stepId with
    | .str s => return !(".extern".toList.isSuffixOf s)
    | _ => .error .attributeError

/-- `_job_elapsed_seconds` (:478) -/
def jobElapsedSeconds (job : Payload F) : Except Py.Error (Option F) := do
  let timeData := Value.getOr job "time" (.dict [])
  let start ← intField (timeValue timeData "start" .none)
  let stop ← intField (timeValue timeData "end" .none)
  match start, stop with
  | some start, some stop =>
    if start < stop then some <$> Python.floatOfInt (stop - start) else elapsed timeData
  | _, _ => elapsed timeData
where
  elapsed (timeData : Value F) : Except Py.Error (Option F) := do
    return (← floatField (timeValue timeData "elapsed" .none)).filter fun x => Python.lt (Python.literal 0) x

structure StepSummary (F : Type) where
  stepId : Value F
  stepName : Value F
  elapsedSeconds : Option F
  totalCpuSeconds : Option F

def floatOrNone (x : Option F) : Value F := match x with
  | some x => .float x
  | none => .none

def StepSummary.value (s : StepSummary F) : Value F :=
  .dict [("step_id", s.stepId), ("step_name", s.stepName), ("elapsed_seconds", floatOrNone s.elapsedSeconds),
    ("total_cpu_seconds", floatOrNone s.totalCpuSeconds)]

/-- The body of the loop of `_usage_stats` (:498): the summary of a step, and whether it counts. -/
def stepSummary (step : Value F) : Except Py.Error (StepSummary F × Bool) := do
  let stepId ← stepIdentifier step
  let name ← stepName step
  let elapsed ← stepElapsedSeconds step
  let total ← stepTotalCpuSeconds step
  let included ← includeCpuStep step
  return (⟨stepId, name, elapsed, total⟩, included)

structure Usage (F : Type) where
  stats : Value F
  usedMemoryGb : Option F
  usedCpuCoresAvg : Option F

def totalCpuSeconds (summaries : List (StepSummary F × Bool)) : F :=
  (summaries.filterMap fun s => if s.2 then s.1.totalCpuSeconds else none).foldl Python.add (Python.literal 0)

/-- `_usage_stats` (:493) -/
def usageStats (job : Payload F) : Except Py.Error (Usage F) := do
  let steps ← jobSteps job
  let summaries ← steps.mapM stepSummary
  let total := totalCpuSeconds summaries
  let elapsed ← jobElapsedSeconds job
  let usedCpuCoresAvg := (elapsed.filter fun x => Python.lt (Python.literal 0) x).map fun x => Python.div total x
  let (usedMemoryGb, source) ← maxMemoryGb job
  let steps (included : Bool) : Value F :=
    .list ((summaries.filter fun s => s.2 == included).map fun s => s.1.value)
  return {
    stats := .dict [
      ("memory", .dict [("value_gb", floatOrNone usedMemoryGb),
        ("source", match source with | some text => .str text | none => .none)]),
      ("cpu", .dict [("kind", .str "average_concurrency_estimate"), ("total_seconds", .float total),
        ("job_elapsed_seconds", floatOrNone elapsed), ("estimated_cores_avg", floatOrNone usedCpuCoresAvg),
        ("formula", .str "sum(step.time.total) / job_elapsed_seconds"),
        ("included_steps", steps true), ("excluded_steps", steps false)])],
    usedMemoryGb, usedCpuCoresAvg }

/-! ## Rows (:531-670) -/

/-- `_extract` (:531), of a listed job. -/
def extract (job : Payload F) : Except Py.Error (Row F) := do
  let get := Value.get job
  return {
    jobId := get "job_id"
    jobName := get "name"
    jobState := ← stateStr (get "job_state")
    stateReason := get "state_reason"
    userName := get "user_name"
    userId := none
    account := get "account"
    group := get "group"
    partition := get "partition"
    qos := get "qos"
    nodes := get "nodes"
    nodeCount := ← intField (get "node_count")
    cpus := ← intField (get "cpus")
    priority := ← intField (get "priority")
    tresReqStr := tresStr ((get "tres_req_str").or (get "tres_per_job"))
    tresPerJob := tresStr (get "tres_per_job")
    tresPerNode := tresStr (get "tres_per_node")
    gresDetail := ← gresStr (get "gres_detail")
    tresRequested := none
    tresAllocated := none
    submitTime := ← ts (get "submit_time")
    startTime := ← ts (get "start_time")
    endTime := ← ts (get "end_time")
    eligibleTime := ← ts (get "eligible_time")
    lastSchedEvaluationTime := ← ts (get "last_sched_evaluation")
    timeLimitMinutes := ← intField (get "time_limit")
    usedMemoryGb := none
    usageStats := none
    usedCpuCoresAvg := none
    exitCode := exitStr (get "exit_code")
    workingDirectory := get "current_working_directory"
    command := get "command" }

/-- `d.get(key, default) if isinstance(d, dict) else default` -/
def fromDict (value : Value F) (key : Str) (default : Value F) : Value F :=
  match value with
  | .dict items => Value.getOr items key default
  | _ => default

/-- `value` where it is not `None`, else the stored one. -/
def orStored (value stored : Value F) : Value F := if value.isNone then stored else value

/-- The state `_extract_detail` reads. -/
def detailState (job : Payload F) : Value F :=
  fromDict (Value.getOr job "state" (.dict [])) "current" (Value.get job "job_state")

/-- A time of a detail payload: under `time`, else at the top. -/
def detailTime (job : Payload F) (key plainKey : Str) : Value F :=
  timeValue (Value.getOr job "time" (.dict [])) key (Value.get job plainKey)

/-- `_extract_detail` (:569) -/
def extractDetail (job : Payload F) (fallback : Row F) : Except Py.Error (Row F) := do
  let get := Value.get job
  let association := Value.getOr job "association" (.dict [])
  let tres := Value.getOr job "tres" (.dict [])
  let jobState ← stateStr (detailState job)
  let usage ← usageStats job
  let nodeCount ← intField (get "node_count")
  let cpus ← intField (get "cpus")
  let priority ← intField (get "priority")
  let gresDetail ← gresStr (get "gres_detail")
  let submitTime ← ts (detailTime job "submission" "submit_time")
  let startTime ← ts (detailTime job "start" "start_time")
  let endTime ← ts (detailTime job "end" "end_time")
  let eligibleTime ← ts (detailTime job "eligible" "eligible_time")
  let lastSchedEvaluationTime ← ts (get "last_sched_evaluation")
  let timeLimitMinutes ← intField (detailTime job "limit" "time_limit")
  return {
    jobId := Value.getOr job "job_id" fallback.jobId
    jobName := Value.getOr job "name" fallback.jobName
    jobState := (jobState.filter (· ≠ [])).or fallback.jobState
    stateReason := (match Value.getOr job "state" (.dict []) with
      | .dict state => Value.get state "reason"
      | _ => get "state_reason").or fallback.stateReason
    userName := (((get "user").or (get "user_name")).or (fromDict association "user" .none)).or fallback.userName
    userId := fallback.userId
    account := orStored (fromDict association "account" (get "account")) fallback.account
    group := ((get "group").or (get "group_name")).or fallback.group
    partition := orStored (Value.getOr job "partition" fallback.partition) fallback.partition
    qos := orStored (Value.getOr job "qos" fallback.qos) fallback.qos
    nodes := orStored (Value.getOr job "nodes" fallback.nodes) fallback.nodes
    nodeCount := nodeCount.or fallback.nodeCount
    cpus := cpus.or fallback.cpus
    priority := priority.or fallback.priority
    tresReqStr := (tresStr ((get "tres_req_str").or (get "tres_per_job"))).or fallback.tresReqStr
    tresPerJob := (tresStr (get "tres_per_job")).or fallback.tresPerJob
    tresPerNode := (tresStr (get "tres_per_node")).or fallback.tresPerNode
    gresDetail := gresDetail.or fallback.gresDetail
    tresRequested := (tresJson (fromDict tres "requested" .none)).or fallback.tresRequested
    tresAllocated := (tresJson (fromDict tres "allocated" .none)).or fallback.tresAllocated
    submitTime := submitTime.or fallback.submitTime
    startTime, endTime
    eligibleTime := eligibleTime.or fallback.eligibleTime
    lastSchedEvaluationTime := lastSchedEvaluationTime.or fallback.lastSchedEvaluationTime
    timeLimitMinutes := timeLimitMinutes.or fallback.timeLimitMinutes
    usedMemoryGb := usage.usedMemoryGb
    usageStats := some usage.stats
    usedCpuCoresAvg := usage.usedCpuCoresAvg
    exitCode := exitStr ((get "exit_code").or (get "derived_exit_code"))
    workingDirectory := ((get "current_working_directory").or (get "working_directory")).or fallback.workingDirectory
    command := ((get "command").or (get "submit_line")).or fallback.command }

/-! ## What the helpers raise on -/

/-- An exception `except (TypeError, ValueError)` catches, or none. -/
def Converts {α : Type} (x : Except Py.Error α) : Prop := ∀ e, x = .error e → e = .typeError ∨ e = .valueError

omit [Python F] in
theorem orElse_returns_iff {α : Type} {x : Except Py.Error α} {default : α} :
    (Py.orElse x default).Returns ↔ Converts x := by
  cases x with
  | ok a => simp [Py.orElse, Converts]
  | error e => cases e <;> simp [Py.orElse, Converts]

omit [Python F] in
theorem converts_map {α β : Type} {x : Except Py.Error α} {f : α → β} : Converts (x.map f) ↔ Converts x := by
  cases x <;> simp [Converts, Except.map]

/-- A list of texts, apart from the values `keep` drops. -/
def TextItems (keep : Value F → Bool) : Value F → Prop
  | .list items => ∀ item ∈ items, keep item = true → ∃ s, item = .str s
  | _ => True

omit [Python F] in
theorem join_returns_iff {sep : Str} {values : List (Value F)} :
    (Value.join sep values).Returns ↔ ∀ value ∈ values, ∃ s, value = .str s := by
  rw [Value.join, Except.returns_bind_const (p := True) fun _ _ => by simp, and_true, Except.returns_mapM]
  refine forall₂_congr fun value _ => ?_
  cases value <;> simp

theorem stateStr_returns_iff (value : Value F) : (stateStr value).Returns ↔ TextItems Value.truthy value := by
  cases value with
  | list items =>
    simp only [stateStr, TextItems]
    split
    next h =>
      simp only [List.isEmpty_iff, List.filter_eq_nil_iff] at h
      simp only [Except.pure_eq_ok, Except.returns_ok, true_iff]
      exact fun item hitem htruthy => absurd htruthy (h item hitem)
    next =>
      rw [Except.returns_bind_const (p := True) fun _ _ => by simp, and_true, join_returns_iff]
      simp only [List.mem_filter, and_imp]
  | _ => simp [stateStr, TextItems]

theorem gresStr_returns_iff (value : Value F) : (gresStr value).Returns ↔ TextItems (fun _ => true) value := by
  cases value with
  | list items =>
    cases items with
    | nil => simp [gresStr, TextItems]
    | cons item items =>
      rw [gresStr, Except.returns_bind_const (p := True) fun _ _ => by simp, and_true, join_returns_iff]
      · simp [TextItems]
      · simp
  | _ => simp [gresStr, TextItems]

/-- A number field that is no infinity and, as a float, not too large. -/
def IntShape (value : Value F) : Prop := ∀ number, fieldNumber value = some number → Converts number.toInt

def FloatShape (value : Value F) : Prop := ∀ number, fieldNumber value = some number → Converts number.toFloat

theorem intField_returns_iff (value : Value F) : (intField value).Returns ↔ IntShape value := by
  unfold intField IntShape
  cases h : fieldNumber value with
  | none => simp
  | some number =>
    cases number with
    | none => simp [Value.toInt, Converts]
    | _ => exact orElse_returns_iff.trans (converts_map.trans (by simp))

theorem floatField_returns_iff (value : Value F) : (floatField value).Returns ↔ FloatShape value := by
  unfold floatField FloatShape
  cases h : fieldNumber value with
  | none => simp
  | some number =>
    cases number with
    | none => simp [Value.toFloat, Converts]
    | _ => exact orElse_returns_iff.trans (converts_map.trans (by simp))

/-- What `_ts` converts. -/
def tsNumber : Value F → Value F
  | .dict items => if !(Value.getOr items "set" (.bool true)).truthy then .none else Value.get items "number"
  | value => value

def TimeShape (value : Value F) : Prop := (tsNumber value).isBlank = false → Converts (tsNumber value).toInt

theorem ts_returns_iff (value : Value F) : (ts value).Returns ↔ TimeShape value := by
  have hts : ts value = if (tsNumber value).isBlank then return none else do
      let n ← Py.orElse ((tsNumber value).toInt.map some) none
      return n.bind fun n => if n ≤ 0 then none else fromTimestamp n := by
    cases value <;> rfl
  rw [hts, TimeShape]
  split
  next h => simp [h]
  next h =>
    rw [Except.returns_bind_const (p := True) fun _ _ => by simp, and_true, orElse_returns_iff, converts_map]
    simp [h]

/-- The id of a step that is not named `extern` ends or does not end with `.extern`. -/
def IdShape (stepId stepName : Value F) : Prop :=
  (stepName.or (.str [])).isStr "extern" = true ∨ ∃ s, stepId.or (.str []) = .str s

/-- A step with the parts `_usage_stats` reads. -/
structure StepShape (step : Value F) : Prop where
  isDict : ∃ items timeData, step = .dict items ∧ Value.getOr items "time" (.dict []) = .dict timeData ∧
    FloatShape (Value.get timeData "elapsed") ∧ ∀ total, Value.getOr timeData "total" (.dict []) = .dict total →
      FloatShape (Value.get total "seconds") ∧ FloatShape (Value.get total "microseconds")
  id : ∀ stepId name, stepIdentifier step = .ok stepId → stepName step = .ok name → IdShape stepId name

omit [Python F] in
theorem stepField_dict (key : Str) (items : List (Str × Value F)) : (stepField key (.dict items)).Returns := by
  unfold stepField
  dsimp only
  split <;> simp

theorem stepElapsedSeconds_returns_iff (items : List (Str × Value F)) :
    (stepElapsedSeconds (.dict items)).Returns ↔
      ∃ timeData, Value.getOr items "time" (.dict []) = .dict timeData ∧ FloatShape (Value.get timeData "elapsed") := by
  unfold stepElapsedSeconds
  dsimp only
  cases Value.getOr items "time" (.dict []) with
  | dict timeData =>
    rw [Except.returns_bind_const (p := True) fun _ _ => by simp, and_true, floatField_returns_iff]
    simp
  | _ => simp

theorem stepTotalCpuSeconds_returns_iff {items timeData : List (Str × Value F)}
    (htime : Value.getOr items "time" (.dict []) = .dict timeData) :
    (stepTotalCpuSeconds (.dict items)).Returns ↔ ∀ total, Value.getOr timeData "total" (.dict []) = .dict total →
      FloatShape (Value.get total "seconds") ∧ FloatShape (Value.get total "microseconds") := by
  unfold stepTotalCpuSeconds
  simp only [htime]
  cases Value.getOr timeData "total" (.dict []) with
  | dict total =>
    simp only [Value.dict.injEq, forall_eq']
    rw [Except.returns_bind_const fun _ _ => Except.returns_bind_const (p := True) fun _ _ => by simp, and_true,
      floatField_returns_iff, floatField_returns_iff]
  | _ => simp

theorem includeCpuStep_returns_iff {step stepId name : Value F} (hid : stepIdentifier step = .ok stepId)
    (hname : stepName step = .ok name) : (includeCpuStep step).Returns ↔ IdShape stepId name := by
  rw [includeCpuStep, hid, hname, IdShape]
  simp only [Except.ok_bind]
  split
  next h => exact ⟨fun _ => .inl h, fun _ => Except.returns_ok _⟩
  next h =>
    split
    next s hs => exact ⟨fun _ => .inr ⟨s, hs⟩, fun _ => Except.returns_ok _⟩
    next hs =>
      refine ⟨fun hr => absurd hr (Except.not_returns_error _), ?_⟩
      rintro (houter | ⟨s, hs'⟩)
      · exact absurd houter h
      · exact absurd hs' (hs s)

theorem stepSummary_returns_iff (step : Value F) : (stepSummary step).Returns ↔ StepShape step := by
  cases step with
  | dict items =>
    obtain ⟨stepId, hid⟩ := stepField_dict "id" items
    obtain ⟨name, hname⟩ := stepField_dict "name" items
    have hsummary : (stepSummary (.dict items)).Returns ↔
        (stepElapsedSeconds (.dict items)).Returns ∧ (stepTotalCpuSeconds (.dict items)).Returns ∧
          (includeCpuStep (.dict items)).Returns := by
      rw [stepSummary, stepIdentifier, stepName, hid, hname, Except.ok_bind, Except.ok_bind]
      refine Except.returns_bind_const fun _ _ => Except.returns_bind_const fun _ _ => ?_
      rw [Except.returns_bind_const (p := True) fun _ _ => by simp, and_true]
    rw [hsummary, includeCpuStep_returns_iff hid hname, stepElapsedSeconds_returns_iff]
    constructor
    · rintro ⟨⟨timeData, htime, helapsed⟩, htotal, hidshape⟩
      refine ⟨⟨items, timeData, rfl, htime, helapsed, (stepTotalCpuSeconds_returns_iff htime).1 htotal⟩, ?_⟩
      intro stepId' name' hid' hname'
      cases hid.symm.trans hid'
      cases hname.symm.trans hname'
      exact hidshape
    · rintro ⟨⟨items', timeData, hitems, htime, helapsed, htotal⟩, hidshape⟩
      cases hitems
      exact ⟨⟨timeData, htime, helapsed⟩, (stepTotalCpuSeconds_returns_iff htime).2 htotal,
        hidshape stepId name hid hname⟩
  | _ =>
    constructor
    · rintro ⟨_, h⟩
      cases h
    · rintro ⟨⟨_, _, h, -⟩, -⟩
      cases h

/-- The payloads `_extract_detail` gets a row from. -/
structure WellFormed (job : Payload F) : Prop where
  state : TextItems Value.truthy (detailState job)
  steps : ∃ steps, jobSteps job = .ok steps ∧ ∀ step ∈ steps, StepShape step
  elapsed : (jobElapsedSeconds job).Returns
  memory : (maxMemoryGb job).Returns
  counts : IntShape (Value.get job "node_count") ∧ IntShape (Value.get job "cpus") ∧ IntShape (Value.get job "priority")
  gres : TextItems (fun _ => true) (Value.get job "gres_detail")
  times : TimeShape (detailTime job "submission" "submit_time") ∧ TimeShape (detailTime job "start" "start_time") ∧
    TimeShape (detailTime job "end" "end_time") ∧ TimeShape (detailTime job "eligible" "eligible_time") ∧
    TimeShape (Value.get job "last_sched_evaluation")
  limit : IntShape (detailTime job "limit" "time_limit")

theorem usageStats_returns_iff (job : Payload F) :
    (usageStats job).Returns ↔ (∃ steps, jobSteps job = .ok steps ∧ ∀ step ∈ steps, StepShape step) ∧
      (jobElapsedSeconds job).Returns ∧ (maxMemoryGb job).Returns := by
  have htail (steps : List (Value F)) : (steps.mapM stepSummary).Returns ↔ ∀ step ∈ steps, StepShape step := by
    rw [Except.returns_mapM]
    exact forall₂_congr fun step _ => stepSummary_returns_iff step
  have h : (usageStats job).Returns ↔ ∃ steps, jobSteps job = .ok steps ∧ (steps.mapM stepSummary).Returns ∧
      (jobElapsedSeconds job).Returns ∧ (maxMemoryGb job).Returns := by
    rw [usageStats, Except.returns_bind]
    refine exists_congr fun steps => and_congr_right fun _ => ?_
    refine Except.returns_bind_const fun _ _ => Except.returns_bind_const fun _ _ => ?_
    rw [Except.returns_bind_const (p := True) fun _ _ => by simp, and_true]
  rw [h]
  simp only [htail]
  constructor
  · rintro ⟨steps, hsteps, hshape, helapsed, hmemory⟩
    exact ⟨⟨steps, hsteps, hshape⟩, helapsed, hmemory⟩
  · rintro ⟨⟨steps, hsteps, hshape⟩, helapsed, hmemory⟩
    exact ⟨steps, hsteps, hshape, helapsed, hmemory⟩

theorem extractDetail_returns_iff (job : Payload F) (fallback : Row F) :
    (extractDetail job fallback).Returns ↔ WellFormed job := by
  have h : (extractDetail job fallback).Returns ↔ (stateStr (detailState job)).Returns ∧ (usageStats job).Returns ∧
      (intField (Value.get job "node_count")).Returns ∧ (intField (Value.get job "cpus")).Returns ∧
      (intField (Value.get job "priority")).Returns ∧ (gresStr (Value.get job "gres_detail")).Returns ∧
      (ts (detailTime job "submission" "submit_time")).Returns ∧ (ts (detailTime job "start" "start_time")).Returns ∧
      (ts (detailTime job "end" "end_time")).Returns ∧ (ts (detailTime job "eligible" "eligible_time")).Returns ∧
      (ts (Value.get job "last_sched_evaluation")).Returns ∧
        (intField (detailTime job "limit" "time_limit")).Returns := by
    unfold extractDetail
    iterate 11 refine Except.returns_bind_const fun _ _ => ?_
    rw [Except.returns_bind_const (p := True) fun _ _ => by simp, and_true]
  rw [h, stateStr_returns_iff, usageStats_returns_iff, gresStr_returns_iff]
  simp only [intField_returns_iff, ts_returns_iff]
  constructor
  · rintro ⟨hstate, ⟨hsteps, helapsed, hmemory⟩, hnodes, hcpus, hprio, hgres, h1, h2, h3, h4, h5, hlimit⟩
    exact ⟨hstate, hsteps, helapsed, hmemory, ⟨hnodes, hcpus, hprio⟩, hgres, ⟨h1, h2, h3, h4, h5⟩, hlimit⟩
  · rintro ⟨hstate, hsteps, helapsed, hmemory, ⟨hnodes, hcpus, hprio⟩, hgres, ⟨h1, h2, h3, h4, h5⟩, hlimit⟩
    exact ⟨hstate, ⟨hsteps, helapsed, hmemory⟩, hnodes, hcpus, hprio, hgres, h1, h2, h3, h4, h5, hlimit⟩

/-! ## What the row of a detail payload holds -/

/-- The submission time of a detail payload. -/
def payloadSubmitTime (job : Payload F) : Except Py.Error (Option DateTime) :=
  ts (detailTime job "submission" "submit_time")

/-- Key fields come from the payload where it has them, usage fields from the payload alone. -/
structure DetailRow (job : Payload F) (fallback row : Row F) : Prop where
  jobId : row.jobId = Value.getOr job "job_id" fallback.jobId
  submitTime : ∃ time, payloadSubmitTime job = .ok time ∧ row.submitTime = time.or fallback.submitTime
  usage : ∃ usage, Jobs.usageStats job = .ok usage ∧ row.usedMemoryGb = usage.usedMemoryGb ∧
    row.usedCpuCoresAvg = usage.usedCpuCoresAvg

theorem extractDetail_spec {job : Payload F} {fallback row : Row F} (h : extractDetail job fallback = .ok row) :
    DetailRow job fallback row := by
  unfold extractDetail at h
  simp only [Except.bind_eq_ok] at h
  obtain ⟨_, -, usage, husage, _, -, _, -, _, -, _, -, time, htime, _, -, _, -, _, -, _, -, _, -, hrow⟩ := h
  cases hrow
  exact ⟨rfl, ⟨time, htime, rfl⟩, ⟨usage, husage, rfl, rfl⟩⟩

end SlurmWeb.Jobs
