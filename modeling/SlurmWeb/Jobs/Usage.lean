import SlurmWeb.Jobs.Extract

/-!
# Usage of a finished job (slurmweb/persistence/jobs_store.py :376-528)

What the loops of `usageStats` compute, in exact arithmetic, over any list of steps.

| here | there |
| --- | --- |
| `given`, `number`, `whole` | what `_float_field` and `_int_field` read |
| `memoryOf` | `_extract_step_tres_count(step, section, "max", "mem")` |
| `isExtern` | the steps `_include_cpu_step` leaves out |
| `runTime` | `_job_elapsed_seconds`, zero where it is `None` |

`_step_elapsed_seconds` takes the time of a step for a `dict` without a look at it, as its neighbours do not.

* `maxStepMemory_eq` — the loop over the steps gives the maximum.
* `usage_reported_iff` — the figures are those of the steps, in any order, exactly where no time is of another type.
-/

namespace SlurmWeb.Jobs

open Strings Py

variable {F : Type} [Python F]

/-! ## Exact arithmetic -/

/-- Floats without rounding, infinities and NaN. -/
class ExactField (F : Type) [Python F] [Field F] [LinearOrder F] : Prop where
  literal_eq : ∀ n : Nat, (Python.literal n : F) = n
  add_eq : ∀ x y : F, Python.add x y = x + y
  div_eq : ∀ x y : F, Python.div x y = x / y
  lt_eq : ∀ x y : F, Python.lt x y = decide (x < y)
  le_eq : ∀ x y : F, Python.le x y = decide (x ≤ y)
  truthy_eq : ∀ x : F, Python.floatTruthy x = decide (x ≠ 0)
  floatOfInt_eq : ∀ n : Int, (Python.floatOfInt n : Except Py.Error F) = .ok n
  intOfFloat_ok : ∀ x : F, ∃ n, Python.intOfFloat x = .ok n

instance : ExactField ℚ where
  literal_eq _ := rfl
  add_eq _ _ := rfl
  div_eq _ _ := rfl
  lt_eq _ _ := rfl
  le_eq _ _ := rfl
  truthy_eq x := by
    show (x != 0) = decide (x ≠ 0)
    rw [bne, decide_not, beq_eq_decide]
  floatOfInt_eq _ := rfl
  intOfFloat_ok x := ⟨_, rfl⟩

/-! ## What is read of a step -/

/-- The value of a field: its own, or that of an optional number that is set and finite. -/
def given : Value F → Value F
  | .dict items =>
    if (Value.getOr items "set" (.bool true)).truthy && !(Value.getOr items "infinite" (.bool false)).truthy then
      Value.get items "number"
    else .none
  | value => value

/-- The number of a field, where it has one. -/
def number (value : Value F) : Option F := (given value).toFloat.toOption

def whole (value : Value F) : Option Int := (given value).toInt.toOption

/-- `value.get(key)` of a `dict`. -/
def inner (value : Value F) (key : Str) : Value F := Value.get (dictItems value) key

def stepInfo (step : Value F) (key : Str) : Value F := inner (inner step "step") key

/-- A step with a text as its id, or none. -/
structure StepOk (step : Value F) : Prop where
  isDict : ∃ items, step = .dict items
  id : ∃ s, (stepInfo step "id").or (.str []) = .str s

/-- The time of a step is missing or a `dict`. -/
def TimeOk (step : Value F) : Prop := ∃ timeData, Value.getOr (dictItems step) "time" (.dict []) = .dict timeData

def textOf : Value F → Str
  | .str s => s
  | _ => []

def isExtern (step : Value F) : Bool :=
  (stepInfo step "name").isStr "extern" || ".extern".toList.isSuffixOf (textOf (stepInfo step "id"))

variable [Field F] [LinearOrder F]

/-- The first count of the bucket that is a number and not negative. -/
def memoryOf (section_ : Str) (step : Value F) : Option F :=
  (listItems (inner (inner (inner step "tres") section_) "max")).findSome? fun tres =>
    if (inner tres "type").isStr "mem" then (number (inner tres "count")).filter (0 ≤ ·) else none

def peak (section_ : Str) (steps : List (Value F)) : Option F := (steps.filterMap (memoryOf section_)).max?

def stepTotal (step : Value F) (key : Str) : Option F := number (inner (inner (inner step "time") "total") key)

/-- Seconds plus microseconds, zero where they are missing. -/
def cpuSeconds (step : Value F) : F :=
  (stepTotal step "seconds").getD 0 + (stepTotal step "microseconds").getD 0 / 1000000

def cpuTotal (steps : List (Value F)) : F := ((steps.filter fun step => !isExtern step).map cpuSeconds).sum

/-- `None` where both are missing. -/
def secondsOrNone (seconds microseconds : Option F) : Option F :=
  if seconds.isNone && microseconds.isNone then none else some (seconds.getD 0 + microseconds.getD 0 / 1000000)

def summaryOf (step : Value F) : StepSummary F where
  stepId := stepInfo step "id"
  stepName := stepInfo step "name"
  elapsedSeconds := (number (inner (inner step "time") "elapsed")).filter (0 < ·)
  totalCpuSeconds := secondsOrNone (stepTotal step "seconds") (stepTotal step "microseconds")

def positive (x : F) : Option F := if 0 < x then some x else none

/-- From the start to the end of the job, else the time it says has elapsed. -/
def runTime (job : Payload F) : F :=
  let elapsed := (number (inner (Value.get job "time") "elapsed")).getD 0
  match whole (inner (Value.get job "time") "start"), whole (inner (Value.get job "time") "end") with
  | some start, some stop => if start < stop then ((stop - start : Int) : F) else elapsed
  | _, _ => elapsed

/-! ## Fields -/

section

variable [ExactField F]

theorem converts_toFloat (value : Value F) : Converts value.toFloat := by
  intro e h
  cases value with
  | int n => rw [Value.toFloat, ExactField.floatOfInt_eq] at h; cases h
  | bool b => rw [Value.toFloat, ExactField.floatOfInt_eq] at h; cases h
  | str s =>
    rw [Value.toFloat] at h
    split at h <;> cases h
    exact .inr rfl
  | float x => cases h
  | none => cases h; exact .inl rfl
  | list items => cases h; exact .inl rfl
  | dict items => cases h; exact .inl rfl

theorem converts_toInt (value : Value F) : Converts value.toInt := by
  intro e h
  cases value with
  | float x =>
    obtain ⟨n, hn⟩ := ExactField.intOfFloat_ok x
    rw [Value.toInt, hn] at h
    cases h
  | str s =>
    rw [Value.toInt] at h
    split at h <;> cases h
    exact .inr rfl
  | int n => cases h
  | bool b => cases h
  | none => cases h; exact .inl rfl
  | list items => cases h; exact .inl rfl
  | dict items => cases h; exact .inl rfl

omit [Python F] [Field F] [LinearOrder F] [ExactField F] in
/-- What does not convert is left out. -/
theorem orElse_eq {α : Type} {x : Except Py.Error α} (h : Converts x) :
    Py.orElse (x.map some) none = .ok x.toOption := by
  cases x with
  | ok a => rfl
  | error e => rcases h e rfl with rfl | rfl <;> rfl

omit [Field F] [LinearOrder F] [ExactField F] in
theorem fieldNumber_eq (value : Value F) : (fieldNumber value).getD .none = given value := by
  cases value with
  | dict items =>
    rw [fieldNumber, given]
    cases (Value.getOr items "set".toList (.bool true)).truthy <;>
      cases (Value.getOr items "infinite".toList (.bool false)).truthy <;> rfl
  | _ => rfl

theorem floatField_eq (value : Value F) : floatField value = .ok (number value) := by
  rw [number, ← fieldNumber_eq, floatField]
  cases fieldNumber value with
  | none => rfl
  | some field =>
    cases field with
    | none => rfl
    | _ => exact orElse_eq (converts_toFloat _)

theorem intField_eq (value : Value F) : intField value = .ok (whole value) := by
  rw [whole, ← fieldNumber_eq, intField]
  cases fieldNumber value with
  | none => rfl
  | some field =>
    cases field with
    | none => rfl
    | _ => exact orElse_eq (converts_toInt _)

theorem orZero_eq (x : Option F) : orZero x = x.getD 0 := by
  have hzero : (Python.literal 0 : F) = 0 := (ExactField.literal_eq 0).trans Nat.cast_zero
  cases x with
  | none => exact hzero
  | some x =>
    rw [orZero, ExactField.truthy_eq, hzero]
    by_cases h : x = 0
    · rw [if_neg (by simpa using h), h]
      rfl
    · rw [if_pos (by simpa using h)]
      rfl

/-! ## Memory -/

theorem tresCount_eq : ∀ values : List (Value F), tresCount "mem" values = .ok (values.findSome? fun tres =>
    if (inner tres "type").isStr "mem" then (number (inner tres "count")).filter (0 ≤ ·) else none)
  | [] => rfl
  | tres :: values => by
    rw [List.findSome?_cons, tresCount]
    show (if (inner tres "type").isStr "mem" = true then _ else _) = _
    by_cases htype : (inner tres "type").isStr "mem" = true
    · have hinner : inner tres "count" = Value.get (dictItems tres) "count" := rfl
      rw [if_pos htype, if_pos htype, floatField_eq, Except.ok_bind, hinner]
      cases number (Value.get (dictItems tres) "count") with
      | none => exact tresCount_eq values
      | some count =>
        dsimp only
        rw [ExactField.lt_eq, (ExactField.literal_eq 0).trans Nat.cast_zero]
        by_cases hnegative : count < 0
        · rw [if_pos (decide_eq_true hnegative), Option.filter_some_neg (by simpa using hnegative)]
          exact tresCount_eq values
        · rw [if_neg (by simpa using hnegative), Option.filter_some_pos (by simpa using hnegative)]
          rfl
    · rw [if_neg htype, if_neg htype]
      exact tresCount_eq values

theorem extractStepTresCount_eq (step : Value F) (section_ : Str) :
    extractStepTresCount step section_ "max" "mem" = .ok (memoryOf section_ step) := tresCount_eq _

theorem maxStepMemory_some (section_ : Str) : ∀ (maximum : F) (steps : List (Value F)),
    maxStepMemory section_ (some maximum) steps = .ok (some ((steps.filterMap (memoryOf section_)).foldl max maximum))
  | maximum, [] => rfl
  | maximum, step :: steps => by
    rw [maxStepMemory, extractStepTresCount_eq, Except.ok_bind, List.filterMap_cons]
    cases memoryOf section_ step with
    | none => exact maxStepMemory_some section_ maximum steps
    | some count =>
      dsimp only
      rw [List.foldl_cons, ← maxStepMemory_some section_ (max maximum count) steps, ExactField.lt_eq, max_def_lt]
      by_cases h : maximum < count
      · rw [if_pos (decide_eq_true h), if_pos h]
      · rw [if_neg (by simpa using h), if_neg h]

/-- The loop over the steps gives the maximum. -/
theorem maxStepMemory_eq (section_ : Str) : ∀ steps :
    List (Value F), maxStepMemory section_ none steps = .ok (peak section_ steps)
  | [] => rfl
  | step :: steps => by
    rw [maxStepMemory, extractStepTresCount_eq, Except.ok_bind, peak, List.filterMap_cons]
    cases memoryOf section_ step with
    | none => exact maxStepMemory_eq section_ steps
    | some count => exact maxStepMemory_some section_ count steps

theorem maxMemoryGb_eq {job : Payload F} {steps : List (Value F)} (hsteps : jobSteps job = .ok steps) :
    ∃ source, maxMemoryGb job = .ok (((peak "consumed" steps).or (peak "requested" steps)).map
      (· / 1024 ^ 3), source) := by
  have hunit : ∀ bytes : F, Python.div bytes (Python.literal (1024 ^ 3)) = bytes / 1024 ^ 3 := fun bytes => by
    rw [ExactField.div_eq, ExactField.literal_eq]
    norm_num
  rw [maxMemoryGb, hsteps, Except.ok_bind, maxStepMemory_eq, Except.ok_bind]
  cases peak "consumed".toList steps with
  | some bytes => exact ⟨_, by dsimp only; rw [hunit]; rfl⟩
  | none =>
    dsimp only
    rw [maxStepMemory_eq, Except.ok_bind]
    cases peak "requested".toList steps with
    | some bytes => exact ⟨_, by dsimp only; rw [hunit]; rfl⟩
    | none => exact ⟨none, rfl⟩

omit [ExactField F] in
/-- The peak is the greatest of the steps' memory. -/
theorem peak_eq_some_iff (section_ : Str) (steps : List (Value F)) (bytes : F) :
    peak section_ steps = some bytes ↔ IsGreatest
      {count | ∃ step ∈ steps, memoryOf section_ step = some count} bytes := by
  rw [peak, List.max?_eq_some_iff, IsGreatest, mem_upperBounds]
  simp only [List.mem_filterMap, Set.mem_ofPred_eq]

/-! ## Steps -/

omit [Python F] [Field F] [LinearOrder F] [ExactField F] in
theorem dictItems_getOr (items : List (Str × Value F)) (key : Str) :
    dictItems (Value.getOr items key (.dict [])) = dictItems (Value.get items key) := by
  rw [Value.get, Value.getOr, Value.getOr]
  cases Value.lookup items key <;> rfl

omit [Python F] [Field F] [LinearOrder F] [ExactField F] in
theorem stepField_eq (items : List (Str × Value F)) (key : Str) :
    stepField key (.dict items) = .ok (stepInfo (.dict items) key) := by
  have hinfo : stepInfo (.dict items) key = Value.get (dictItems (Value.getOr items "step" (.dict []))) key := by
    rw [dictItems_getOr]
    rfl
  rw [stepField, hinfo]
  cases Value.getOr items "step".toList (.dict []) <;> rfl

omit [Field F] [LinearOrder F] [ExactField F] in
theorem isStr_or {value : Value F} {text : Str} (htext : text ≠ []) :
    (value.or (.str [])).isStr text = value.isStr text := by
  rw [Value.or]
  split
  next => rfl
  next hfalsy =>
    have hempty : (([] : Str) == text) = false := by simpa using htext.symm
    cases value with
    | str s =>
      have hs : s = [] := by simpa [Value.truthy] using hfalsy
      rw [hs]
    | _ => exact hempty

omit [Field F] [LinearOrder F] [ExactField F] in
theorem textOf_or {value : Value F} {s : Str} (h : value.or (.str []) = .str s) : textOf value = s := by
  rw [Value.or] at h
  split at h
  next => rw [h, textOf]
  next hfalsy =>
    obtain rfl := Value.str.inj h
    cases value with
    | str s => simpa [Value.truthy, textOf] using hfalsy
    | _ => rfl

omit [Field F] [LinearOrder F] [ExactField F] in
theorem includeCpuStep_eq {step : Value F} (h : StepOk step) : includeCpuStep step = .ok (!isExtern step) := by
  obtain ⟨⟨items, rfl⟩, s, hs⟩ := h
  rw [includeCpuStep, stepIdentifier, stepName, stepField_eq, stepField_eq, Except.ok_bind, Except.ok_bind]
  dsimp only
  rw [isStr_or (by decide), isExtern, textOf_or hs, hs]
  cases (stepInfo (.dict items) "name").isStr "extern" <;> rfl

theorem stepTotalCpuSeconds_eq (items : List (Str × Value F)) :
    stepTotalCpuSeconds (.dict items) = .ok (summaryOf (.dict items)).totalCpuSeconds := by
  have hstep : ∀ key, stepTotal (.dict items) key = number (Value.get (dictItems
      (Value.getOr (dictItems (Value.getOr items "time" (.dict []))) "total" (.dict []))) key) := by
    intro key
    rw [dictItems_getOr, dictItems_getOr]
    rfl
  show _ = Except.ok (secondsOrNone (stepTotal (.dict items) "seconds") (stepTotal (.dict items) "microseconds"))
  rw [hstep, hstep, stepTotalCpuSeconds]
  cases Value.getOr items "time".toList (.dict []) with
  | dict timeData =>
    dsimp only [dictItems]
    cases Value.getOr timeData "total".toList (.dict []) with
    | dict total =>
      dsimp only
      rw [floatField_eq, floatField_eq, Except.ok_bind, Except.ok_bind, orZero_eq, orZero_eq, ExactField.add_eq,
        ExactField.div_eq, ExactField.literal_eq]
      norm_num [secondsOrNone]
    | _ => rfl
  | _ => rfl

theorem stepElapsedSeconds_eq {items timeData : List (Str × Value F)}
    (htime : Value.getOr items "time" (.dict []) = .dict timeData) :
    stepElapsedSeconds (.dict items) = .ok (summaryOf (.dict items)).elapsedSeconds := by
  have hinner : inner (inner (.dict items) "time") "elapsed" = Value.get timeData "elapsed" := by
    show Value.get (dictItems (Value.get items "time")) "elapsed" = _
    rw [← dictItems_getOr, htime]
    rfl
  rw [stepElapsedSeconds, htime, summaryOf]
  dsimp only
  rw [hinner, floatField_eq, Except.ok_bind, Except.pure_eq_ok]
  simp only [ExactField.le_eq, ExactField.literal_eq, Nat.cast_zero, ← decide_not, not_le]

/-- The body of the loop over the steps. -/
theorem stepSummary_eq {step : Value F} (h : StepOk step) (htime : TimeOk step) :
    stepSummary step = .ok (summaryOf step, !isExtern step) := by
  have hinclude := includeCpuStep_eq h
  obtain ⟨⟨items, rfl⟩, -⟩ := h
  obtain ⟨timeData, htimeData : Value.getOr items "time" (.dict []) = .dict timeData⟩ := htime
  rw [stepSummary, stepIdentifier, stepName, stepField_eq, stepField_eq, Except.ok_bind, Except.ok_bind,
    stepElapsedSeconds_eq htimeData, Except.ok_bind, stepTotalCpuSeconds_eq, Except.ok_bind, hinclude]
  rfl

/-! ## The whole job -/

theorem totalCpuSeconds_eq (steps : List (Value F)) :
    totalCpuSeconds (steps.map fun step => (summaryOf step, !isExtern step)) = cpuTotal steps := by
  have hfold : ∀ (values : List F) (start : F), values.foldl Python.add start = start + values.sum := by
    intro values
    induction values with
    | nil => intro start; rw [List.foldl_nil, List.sum_nil, add_zero]
    | cons value values ih => intro start; rw [List.foldl_cons, ih, ExactField.add_eq, List.sum_cons, add_assoc]
  have hseconds : ∀ step : Value F, (summaryOf step).totalCpuSeconds.getD 0 = cpuSeconds step := by
    intro step
    show (secondsOrNone _ _).getD 0 = _
    rw [secondsOrNone, cpuSeconds]
    cases stepTotal step "seconds" with
    | some seconds => rfl
    | none => cases stepTotal step "microseconds" <;> simp
  rw [totalCpuSeconds, hfold, (ExactField.literal_eq 0).trans Nat.cast_zero, zero_add, cpuTotal]
  induction steps with
  | nil => rfl
  | cons step steps ih =>
    rw [List.map_cons, List.filterMap_cons, List.filter_cons]
    dsimp only
    cases isExtern step with
    | true => exact ih
    | false =>
      rw [Bool.not_false, if_pos rfl, if_pos rfl, List.map_cons, List.sum_cons, ← hseconds step]
      cases (summaryOf step).totalCpuSeconds with
      | none => rw [Option.getD_none, zero_add]; exact ih
      | some seconds => rw [List.sum_cons, Option.getD_some]; exact congrArg _ ih

omit [Python F] [Field F] [LinearOrder F] [ExactField F] in
theorem timeValue_eq (job : Payload F) (key : Str) :
    timeValue (Value.getOr job "time" (.dict [])) key .none = inner (Value.get job "time") key := by
  rw [inner, ← dictItems_getOr]
  cases Value.getOr job "time".toList (.dict []) <;> rfl

theorem jobElapsedSeconds_eq [IsStrictOrderedRing F] (job : Payload F) :
    jobElapsedSeconds job = .ok (positive (runTime job)) := by
  have helapsed : jobElapsedSeconds.elapsed (Value.getOr job "time" (.dict [])) =
      .ok (positive ((number (inner (Value.get job "time") "elapsed")).getD 0)) := by
    rw [jobElapsedSeconds.elapsed, timeValue_eq, floatField_eq, Except.ok_bind, Except.pure_eq_ok, positive]
    cases number (inner (Value.get job "time".toList) "elapsed".toList) with
    | none => rw [Option.getD_none, if_neg (lt_irrefl _)]; rfl
    | some elapsed =>
      rw [Option.getD_some, Option.filter_some, ExactField.lt_eq, (ExactField.literal_eq 0).trans Nat.cast_zero]
      simp only [decide_eq_true_eq]
  rw [jobElapsedSeconds, runTime, timeValue_eq, timeValue_eq, intField_eq, intField_eq, Except.ok_bind, Except.ok_bind]
  cases whole (inner (Value.get job "time".toList) "start".toList) with
  | none => exact helapsed
  | some start =>
    cases whole (inner (Value.get job "time".toList) "end".toList) with
    | none => exact helapsed
    | some stop =>
      dsimp only
      by_cases h : start < stop
      · have hpos : (0 : F) < ((stop - start : Int) : F) := Int.cast_pos.2 (by omega)
        rw [if_pos h, if_pos h, positive, if_pos hpos, ExactField.floatOfInt_eq]
        rfl
      · rw [if_neg h, if_neg h]
        exact helapsed

end

/-- A figure of the CPU part. -/
def cpuField (usage : Usage F) (key : Str) : Value F := inner (inner usage.stats "cpu") key

/-- A value is `None`, or a float. -/
structure Shows (value : Value F) (x : Option F) : Prop where
  none : x = none → value = .none
  some : ∀ y, x = some y → value = .float y

omit [Python F] [Field F] [LinearOrder F] in
theorem shows_floatOrNone (x : Option F) : Shows (floatOrNone x) x := by
  constructor
  · rintro rfl
    rfl
  · rintro y rfl
    rfl

/-- The greatest of what the steps have. -/
def Peak (section_ : Str) (steps : List (Value F)) (x : Option F) : Prop :=
  ∀ bytes, x = some bytes ↔ IsGreatest {count | ∃ step ∈ steps, memoryOf section_ step = some count} bytes

theorem Peak.unique {section_ : Str} {steps : List (Value F)} {x y : Option F} (hx : Peak section_ steps x)
    (hy : Peak section_ steps y) : x = y := Option.ext fun bytes => (hx bytes).trans (hy bytes).symm

/-- How a step is listed. -/
structure StepEntry (step entry : Value F) : Prop where
  id : inner entry "step_id" = stepInfo step "id"
  name : inner entry "step_name" = stepInfo step "name"
  elapsed : Shows (inner entry "elapsed_seconds") ((number (inner (inner step "time") "elapsed")).filter (0 < ·))
  cpu : Shows (inner entry "total_cpu_seconds")
    (secondsOrNone (stepTotal step "seconds") (stepTotal step "microseconds"))

/-- A list of the steps of one kind. -/
def Lists (value : Value F) (steps : List (Value F)) : Prop := ∃ entries, value = .list entries ∧
  List.Forall₂ StepEntry steps entries

/-- The figures of a job with these steps. -/
structure UsageIs (job : Payload F) (steps : List (Value F)) (usage : Usage F) : Prop where
  memory : ∃ consumed requested, Peak "consumed" steps consumed ∧ Peak "requested" steps requested ∧
    usage.usedMemoryGb = (consumed.or requested).map (· / 1024 ^ 3)
  memoryField : Shows (inner (inner usage.stats "memory") "value_gb") usage.usedMemoryGb
  total : cpuField usage "total_seconds" = .float (cpuTotal steps)
  elapsed : Shows (cpuField usage "job_elapsed_seconds") (positive (runTime job))
  cores : usage.usedCpuCoresAvg = if 0 < runTime job then some (cpuTotal steps / runTime job) else none
  coresField : Shows (cpuField usage "estimated_cores_avg") usage.usedCpuCoresAvg
  included : Lists (cpuField usage "included_steps") (steps.filter fun step => !isExtern step)
  excluded : Lists (cpuField usage "excluded_steps") (steps.filter isExtern)

/-- The figures are reported, and the same for the steps in any other order. -/
def Reported (job : Payload F) (steps : List (Value F)) : Prop :=
  ∃ usage, usageStats job = .ok usage ∧ UsageIs job steps usage ∧
    ∀ job' steps', jobSteps job' = .ok steps' → steps.Perm steps' → Value.lookup job' "time" = Value.lookup job "time" →
      ∃ usage', usageStats job' = .ok usage' ∧ usage'.usedMemoryGb = usage.usedMemoryGb ∧
        usage'.usedCpuCoresAvg = usage.usedCpuCoresAvg ∧
          cpuField usage' "total_seconds" = cpuField usage "total_seconds"

variable [IsStrictOrderedRing F] [ExactField F]

omit [IsStrictOrderedRing F] [ExactField F] in
theorem stepEntry_summary (step : Value F) : StepEntry step (summaryOf step).value :=
  ⟨rfl, rfl, shows_floatOrNone _, shows_floatOrNone _⟩

theorem usageStats_ok {job : Payload F} {steps : List (Value F)} (hsteps : jobSteps job = .ok steps)
    (hok : ∀ step ∈ steps, StepOk step) (htimes : ∀ step ∈ steps, TimeOk step) :
    ∃ usage, usageStats job = .ok usage ∧ UsageIs job steps usage := by
  have hsummaries : steps.mapM stepSummary = .ok (steps.map fun step => (summaryOf step, !isExtern step)) := by
    rw [Except.mapM_eq_ok, List.forall₂_map_right_iff]
    exact List.forall₂_same.2 fun step hstep => stepSummary_eq (hok step hstep) (htimes step hstep)
  have hfilter : ∀ included : Bool,
      ((steps.map fun step => (summaryOf step, !isExtern step)).filter fun s => s.2 == included).map
        (fun s => s.1.value) =
        (steps.filter fun step => (!isExtern step) == included).map fun step => (summaryOf step).value := by
    intro included
    rw [List.filter_map, List.map_map]
    rfl
  have hentries : ∀ listed : List (Value F),
      List.Forall₂ StepEntry listed (listed.map fun step => (summaryOf step).value) :=
    fun listed => List.forall₂_map_right_iff.2 (List.forall₂_same.2 fun step _ => stepEntry_summary step)
  obtain ⟨source, hmemory⟩ := maxMemoryGb_eq hsteps
  have hcores : ((positive (runTime job)).filter fun x => Python.lt (Python.literal 0) x).map
      (fun x => Python.div (cpuTotal steps) x) = if 0 < runTime job then
        some (cpuTotal steps / runTime job) else none := by
    rw [positive]
    split
    next h =>
      have hlt : Python.lt (Python.literal 0) (runTime job) = true := by
        rw [ExactField.lt_eq, (ExactField.literal_eq 0).trans Nat.cast_zero]
        exact decide_eq_true h
      rw [Option.filter_some_pos hlt, Option.map_some, ExactField.div_eq]
    next => rfl
  unfold usageStats
  rw [hsteps, Except.ok_bind, hsummaries, Except.ok_bind, totalCpuSeconds_eq, jobElapsedSeconds_eq,
    Except.ok_bind, hmemory, Except.ok_bind]
  refine ⟨_, rfl, ⟨_, _, peak_eq_some_iff _ steps, peak_eq_some_iff _ steps, rfl⟩, shows_floatOrNone _,
    rfl, shows_floatOrNone _, hcores, shows_floatOrNone _, ?_, ?_⟩
  · refine ⟨_, congrArg Value.list (hfilter true), ?_⟩
    simp only [beq_true]
    exact hentries _
  · refine ⟨_, congrArg Value.list (hfilter false), ?_⟩
    simp only [beq_false, Bool.not_not]
    exact hentries _

omit [Field F] [LinearOrder F] [IsStrictOrderedRing F] [ExactField F] in
theorem timeOk_of_returns {job : Payload F} {steps : List (Value F)} (hsteps : jobSteps job = .ok steps)
    (hreturns : (usageStats job).Returns) : ∀ step ∈ steps, TimeOk step := by
  intro step hstep
  obtain ⟨⟨steps', hsteps', hshape⟩, -, -⟩ := (usageStats_returns_iff job).1 hreturns
  obtain rfl := Except.ok.inj (hsteps'.symm.trans hsteps)
  obtain ⟨items, timeData, rfl, htime, -, -⟩ := (hshape step hstep).isDict
  exact ⟨timeData, htime⟩

/-- **The usage of a job** is reported exactly where the time of every step is missing or a `dict`: the memory is the
greatest first count of the steps, consumed before requested; the CPU time is that of the steps that are not `extern`;
the cores are that time over a positive elapsed time; each step is listed once, as included or as excluded; and no order
of the steps changes a figure. -/
theorem usage_reported_iff {job : Payload F} {steps : List (Value F)} (hsteps : jobSteps job = .ok steps)
    (hok : ∀ step ∈ steps, StepOk step) : Reported job steps ↔ ∀ step ∈ steps, TimeOk step := by
  constructor
  · rintro ⟨usage, husage, -⟩
    exact timeOk_of_returns hsteps ⟨usage, husage⟩
  · intro htimes
    obtain ⟨usage, husage, hthis⟩ := usageStats_ok hsteps hok htimes
    refine ⟨usage, husage, hthis, fun job' steps' hsteps' hperm htime => ?_⟩
    obtain ⟨usage', husage', hother⟩ := usageStats_ok hsteps' (fun step hstep => hok step (hperm.mem_iff.2 hstep))
      fun step hstep => htimes step (hperm.mem_iff.2 hstep)
    have hrun : runTime job' = runTime job := by
      rw [runTime, runTime, Value.get, Value.getOr, htime, Value.get, Value.getOr]
    have hpeak : ∀ {section_ : Str} {x : Option F}, Peak section_ steps' x → Peak section_ steps x := by
      intro section_ x hx bytes
      rw [hx bytes]
      simp only [hperm.mem_iff]
    have hcpu : cpuTotal steps' = cpuTotal steps := ((hperm.filter _).map _).sum_eq.symm
    refine ⟨usage', husage', ?_, ?_, ?_⟩
    · obtain ⟨consumed, requested, hconsumed, hrequested, hmemory⟩ := hthis.memory
      obtain ⟨consumed', requested', hconsumed', hrequested', hmemory'⟩ := hother.memory
      rw [hmemory, hmemory', (hpeak hconsumed').unique hconsumed, (hpeak hrequested').unique hrequested]
    · rw [hother.cores, hthis.cores, hcpu, hrun]
    · rw [hother.total, hthis.total, hcpu]

/-- A step of 200.5 seconds, with a count of memory that is no number before the one that is. -/
def batchStep : Value ℚ := .dict [
  ("step", .dict [("id", .str "7.batch"), ("name", .str "batch")]),
  ("time", .dict [("elapsed", .int 100), ("total", .dict [("seconds", .int 200),
    ("microseconds", .dict [("set", .bool true), ("number", .int 500000)])])]),
  ("tres", .dict [("consumed", .dict [("max", .list [.dict [("type", .str "mem"), ("count", .none)],
    .dict [("type", .str "mem"), ("count", .int 2147483648)]])])])]

/-- A step without a time. -/
def externStep : Value ℚ := .dict [("step", .dict [("id", .str "7.extern"), ("name", .str "extern")])]

def batchJob : Payload ℚ := [("time", .dict [("elapsed", .int 401)]), ("steps", .list [externStep, batchStep])]

theorem usage_reported_batchJob : ∃ usage, usageStats batchJob = .ok usage ∧
    UsageIs batchJob [externStep, batchStep] usage ∧
    usage.usedMemoryGb = some 2 ∧ usage.usedCpuCoresAvg = some (1 / 2) := by
  have hreported : Reported batchJob [externStep, batchStep] := (usage_reported_iff rfl (by
    intro step hstep
    rcases List.mem_cons.1 hstep with rfl | hstep
    · exact ⟨⟨_, rfl⟩, "7.extern", rfl⟩
    · cases List.mem_singleton.1 hstep
      exact ⟨⟨_, rfl⟩, "7.batch", rfl⟩)).2 (by
    intro step hstep
    rcases List.mem_cons.1 hstep with rfl | hstep
    · exact ⟨[], rfl⟩
    · cases List.mem_singleton.1 hstep
      exact ⟨_, rfl⟩)
  obtain ⟨usage, husage, his, -⟩ := hreported
  refine ⟨usage, husage, his, ?_, ?_⟩
  · obtain ⟨consumed, requested, hconsumed, hrequested, hmemory⟩ := his.memory
    rw [hmemory, hconsumed.unique (peak_eq_some_iff _ _), hrequested.unique (peak_eq_some_iff _ _)]
    decide +kernel
  · rw [his.cores]
    decide +kernel

/-- A step whose time is `null`. -/
def untimedStep : Value ℚ := .dict [("step", .dict [("id", .str "7.batch"), ("name", .str "batch")]), ("time", .none)]

/-- `_step_elapsed_seconds` raises an `AttributeError`. -/
theorem untimedStep_not_reported : ¬ ∀ (job : Payload ℚ) (steps : List (Value ℚ)), jobSteps job = .ok steps →
    (∀ step ∈ steps, StepOk step) → Reported job steps := by
  intro h
  obtain ⟨usage, husage, -⟩ := h [("steps", .list [untimedStep])] [untimedStep] rfl (by
    intro step hstep
    cases List.mem_singleton.1 hstep
    exact ⟨⟨_, rfl⟩, "7.batch", rfl⟩)
  have hraises : usageStats [("steps".toList, .list [untimedStep])] = .error .attributeError := rfl
  rw [hraises] at husage
  cases husage

end SlurmWeb.Jobs
