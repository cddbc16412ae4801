import SlurmWeb.Jobs.Extract
import SlurmWeb.Lib.PyText

/-!
# Exit codes of job history (slurmweb/persistence/jobs_store.py)

The table holds exit codes as text. A text is decoded as JSON as often as it is a JSON string, and is kept
where it is neither JSON nor `code:signal`. The history is normalised twice, by the store and by the view.

| here | there |
| --- | --- |
| `optionalNumberDict`, `normalizeHistoryExitCode` | :204, :210 |
| `codeMatch` | the pattern of :228 |
| `withExitCode` | the end of `_serialize_datetimes` (:698), `_normalize_job_history_record` (views/agent.py :123) |

* `normalize_history_exit_code_idempotent` — once is as often as ever, and tame values are normalised
  without an exception.
* `long_code_not_normalized` — an exit code of more digits than `int` converts is none of them.
-/

namespace SlurmWeb.Jobs

open Strings Py

variable {F : Type} [Python F]

/-- `_optional_number_dict` (:204) -/
def optionalNumberDict : Option Int → Value F
  | none => .dict [("set", .bool false), ("infinite", .bool false), ("number", .int 0)]
  | some n => .dict [("set", .bool true), ("infinite", .bool false), ("number", .int n)]

/-- `-?\d+`, for what `\d` matches. -/
def isSigned (digit : Char → Bool) (text : Str) : Bool :=
  match text with
  | '-' :: digits => digits ≠ [] && digits.all digit
  | digits => digits ≠ [] && digits.all digit

/-- `(-?\d+)(?::(-?\d+))?`, all of the text: its groups. -/
def codeMatch (digit : Char → Bool) (text : Str) : Option (Str × Option Str) :=
  match text.splitOn ':' with
  | [code] => if isSigned digit code then some (code, none) else none
  | [code, signal] => if isSigned digit code && isSigned digit signal then some (code, some signal) else none
  | _ => none

/-- `["SUCCESS" if return_code == 0 else "FAILED"]` -/
def defaultStatus (returnCode : Option Int) : List (Value F) :=
  [.str (if returnCode = some 0 then "SUCCESS" else "FAILED")]

def exitCodeDict (returnCode signalId signalName : Value F) (status : List (Value F)) : Value F :=
  .dict [("return_code", returnCode), ("signal", .dict [("id", signalId), ("name", signalName)]),
    ("status", .list status)]

/-- `int(matched.group(2) or 0)` -/
def signalOf (F : Type) [Python F] : Option Str → Except Py.Error Int
  | some signal => (Value.str signal : Value F).toInt
  | none => return 0

/-- The text that is no JSON (:228-240). -/
def codeText (trimmed : Str) : Except Py.Error (Value F) :=
  match codeMatch isDecimal trimmed with
  | some (code, signal) => do
    let returnCode ← (Value.str code : Value F).toInt
    let signalId ← signalOf F signal
    return exitCodeDict (optionalNumberDict (some returnCode)) (optionalNumberDict (some signalId)) (.str [])
      (defaultStatus (some returnCode))
  | none => return .str trimmed

/-- `return_code` and `normalized_return_code`, also of the signal (:245-255, :269-278). -/
def normalizedNumber (value : Value F) : Except Py.Error (Option Int × Value F) := do
  let number ← intField value
  return (number, match value with
    | .dict fields => .dict [("set", Value.getOr fields "set" (.bool number.isSome)),
        ("infinite", Value.getOr fields "infinite" (.bool false)),
          ("number", Value.getOr fields "number" (.int (number.getD 0)))]
    | _ => optionalNumberDict number)

/-- `signal_id_value` and `signal_name` (:257-267) -/
def signalParts : Value F → Value F × Value F
  | .dict fields =>
    (match Value.lookup fields "id" with
      | some id => id
      | none => Value.get fields "signal_id", Value.getOr fields "name" (.str []))
  | signal => (signal, .str [])

/-- `normalized_status` (:280-286) -/
def normalizedStatus (returnCode : Option Int) : Value F → List (Value F)
  | .list items => (items.filter fun item => !item.isBlank).map fun item => .str item.toStr
  | .str (c :: text) => [.str (c :: text)]
  | _ => defaultStatus returnCode

/-- A dictionary (:245-297). -/
def normalizedItems (items : List (Str × Value F)) : Except Py.Error (Value F) := do
  let (returnCode, code) ← normalizedNumber (Value.get items "return_code")
  let (_, signalId) ← normalizedNumber (signalParts (Value.get items "signal")).1
  return exitCodeDict code signalId (signalParts (Value.get items "signal")).2
    (normalizedStatus returnCode (Value.get items "status"))

def textLength : Value F → Nat
  | .str text => text.length
  | _ => 0

theorem textLength_loads {limit : Nat} {text : Str} {parsed : Value F} (hblank : strip text ≠ [])
    (h : Json.loads limit (strip text) = .ok parsed) : textLength parsed < text.length := by
  have hstrip := strip_length_le text
  cases parsed with
  | str inner =>
    have := Json.loads_str_length h
    rw [textLength]
    omega
  | _ =>
    have hpos := List.length_pos_iff.2 hblank
    show 0 < text.length
    omega

/-- `normalize_history_exit_code` (:210); `limit` is how deep `json.loads` may recurse. -/
def normalizeHistoryExitCode (limit : Nat) : Value F → Except Py.Error (Value F)
  | .none => return .none
  | .str text =>
    if _hblank : strip text = [] then return .none
    else
      match _h : Json.loads limit (strip text) with
      | .error .recursion => .error (.other "RecursionError")
      | .error _ => codeText (strip text)
      | .ok parsed => do
        let normalized ← normalizeHistoryExitCode limit parsed
        if normalized.isNone then codeText (strip text) else return normalized
  | .dict items => normalizedItems items
  | value => return value
termination_by value => textLength value
decreasing_by exact textLength_loads _hblank _h

/-- A record with its exit code normalised. -/
def withExitCode (limit : Nat) (record : Payload F) : Except Py.Error (Payload F) := do
  return Dict.put record "exit_code" (← normalizeHistoryExitCode limit (Value.get record "exit_code"))

theorem normalize_text (limit : Nat) (text : Str) : normalizeHistoryExitCode limit (.str text : Value F) =
    if strip text = [] then .ok .none
    else match Json.loads limit (strip text) with
      | .error .recursion => .error (.other "RecursionError")
      | .error _ => codeText (strip text)
      | .ok parsed => normalizeHistoryExitCode limit parsed >>= fun normalized =>
        if normalized.isNone then codeText (strip text) else .ok normalized := by
  rw [normalizeHistoryExitCode]
  by_cases hblank : strip text = []
  · rw [dif_pos hblank, if_pos hblank]
    rfl
  · rw [dif_neg hblank, if_neg hblank]
    split
    next h => rw [h]
    next e hne h =>
      rw [h]
      cases e with
      | recursion => exact absurd rfl hne
      | _ => rfl
    next parsed h =>
      rw [h]
      rfl

/-! ## Numbers -/

omit [Python F] in
theorem exitCodeDict_inj {returnCode returnCode' signalId signalId' name name' : Value F}
    {status status' : List (Value F)}
    (h : exitCodeDict returnCode signalId name status = exitCodeDict returnCode' signalId' name' status') :
    returnCode = returnCode' ∧ signalId = signalId' ∧ name = name' ∧ status = status' := by
  simp only [exitCodeDict, Value.dict.injEq, List.cons.injEq, Prod.mk.injEq, true_and, Value.list.injEq, and_true] at h
  obtain ⟨hcode, ⟨hid, hname⟩, hstatus⟩ := h
  exact ⟨hcode, hid, hname, hstatus⟩

theorem intField_error {value : Value F} {e : Py.Error} (h : intField value = .error e) :
    ∃ x, Python.intOfFloat x = (.error e : Except Py.Error Int) ∧ fieldNumber value = some (.float x) := by
  unfold intField at h
  split at h
  · cases h
  · cases h
  next number hnone hnumber =>
    cases number with
    | none => exact absurd rfl hnone
    | bool b => cases h
    | int n => cases h
    | float x =>
      refine ⟨x, ?_, hnumber⟩
      cases hx : Python.intOfFloat x with
      | ok n =>
        rw [Value.toInt, hx] at h
        cases h
      | error e' =>
        rw [Value.toInt, hx] at h
        cases e' <;> cases h <;> rfl
    | str text =>
      rw [Value.toInt] at h
      cases hread : Python.intOfStr F text <;> rw [hread] at h <;> cases h
    | list items => cases h
    | dict items => cases h

theorem intField_congr {value value' : Value F} (h : fieldNumber value = fieldNumber value') :
    intField value = intField value' := by
  unfold intField
  rw [h]

/-- The three fields of a number, each there or by default. -/
def numberFields (fields : List (Str × Value F)) (number : Option Int) : List (Str × Value F) :=
  [("set", Value.getOr fields "set" (.bool number.isSome)), ("infinite", Value.getOr fields "infinite" (.bool false)),
    ("number", Value.getOr fields "number" (.int (number.getD 0)))]

omit [Python F] in
theorem numberFields_get (fields : List (Str × Value F)) (number : Option Int) :
    (∀ default, Value.getOr (numberFields fields number) "set" default = Value.getOr fields "set"
      (.bool number.isSome)) ∧
    (∀ default, Value.getOr (numberFields fields number) "infinite" default =
      Value.getOr fields "infinite" (.bool false)) ∧
    ∀ default, Value.getOr (numberFields fields number) "number" default = Value.getOr fields "number"
      (.int (number.getD 0)) :=
  ⟨fun _ => rfl, fun _ => rfl, fun _ => rfl⟩

omit [Python F] in
theorem getOr_of_lookup {fields : List (Str × Value F)} {key : Str} {value : Value F}
    (h : Value.lookup fields key = some value)
    (default : Value F) : Value.getOr fields key default = value := by rw [Value.getOr, h, Option.getD_some]

/-- A number with its defaults is converted when it was without them. -/
theorem intField_numberFields {fields : List (Str × Value F)} {number : Option Int}
    (h : (intField (.dict fields)).isOk = true) :
    (intField (.dict (numberFields fields number))).isOk = true := by
  cases hread : intField (.dict (numberFields fields number)) with
  | ok n => rfl
  | error e =>
    obtain ⟨x, -, hnumber⟩ := intField_error hread
    obtain ⟨hset, hinfinite, hfloat⟩ := numberFields_get fields number
    rw [fieldNumber, hset, hinfinite, Value.get, hfloat] at hnumber
    split_ifs at hnumber with hunset hinf
    rw [Option.some.injEq] at hnumber
    -- a default is no float, so the number is the one that was converted
    have hgiven : Value.get fields "number" = .float x := by
      unfold Value.getOr at hnumber
      cases hlookup : Value.lookup fields "number" with
      | none =>
        rw [hlookup] at hnumber
        cases hnumber
      | some value =>
        rw [hlookup] at hnumber
        exact (getOr_of_lookup hlookup _).trans hnumber
    have hsame : fieldNumber (.dict fields) = fieldNumber (.dict (numberFields fields number)) := by
      have hset' : (Value.getOr fields "set" (.bool true)).truthy = true := by
        cases hlookup : Value.lookup fields "set" with
        | none =>
          rw [Value.getOr, hlookup]
          rfl
        | some value =>
          rw [getOr_of_lookup hlookup] at hunset ⊢
          simpa using hunset
      rw [fieldNumber, fieldNumber, hset, hinfinite, hset', if_neg hunset, if_neg hinf, if_neg hinf, hgiven,
        Value.get, hfloat, hnumber]
      rfl
    rw [intField_congr hsame, hread] at h
    cases h

/-- A normalised number stays as it is. -/
theorem normalizedNumber_fixed {value code : Value F} {number : Option Int}
    (h : normalizedNumber value = .ok (number, code)) :
    ∃ number', normalizedNumber code = .ok (number', code) := by
  have hplain : ∀ n : Option Int, ∃ number', normalizedNumber (optionalNumberDict n : Value F) =
      .ok (number', optionalNumberDict n) := by
    intro n
    cases n with
    | none => exact ⟨none, rfl⟩
    | some n => exact ⟨some n, rfl⟩
  obtain ⟨n, hn, hpair⟩ := Except.bind_eq_ok.1 h
  cases hpair
  cases value with
  | dict fields =>
    have hok := @intField_numberFields F _ fields number (by rw [hn]; rfl)
    cases hread : intField (.dict (numberFields fields number)) with
    | error e =>
      rw [hread] at hok
      cases hok
    | ok number' =>
      refine ⟨number', ?_⟩
      show normalizedNumber (.dict (numberFields fields number)) = _
      rw [normalizedNumber, hread]
      rfl
  | _ => exact hplain _

/-! ## Dictionaries -/

/-- A status is a list of texts that are not empty. -/
theorem normalizedStatus_texts [PythonText F] (returnCode : Option Int) (status : Value F) :
    ∀ item ∈ normalizedStatus returnCode status, ∃ s, s ≠ [] ∧ item = .str s := by
  have hdefault : ∀ item ∈ (defaultStatus returnCode : List (Value F)), ∃ s, s ≠ [] ∧ item = .str s := by
    intro item hitem
    rw [defaultStatus, List.mem_singleton] at hitem
    refine ⟨_, ?_, hitem⟩
    split <;> decide
  intro item hitem
  unfold normalizedStatus at hitem
  split at hitem
  · obtain ⟨value, hvalue, rfl⟩ := List.mem_map.1 hitem
    obtain ⟨-, hblank⟩ := List.mem_filter.1 hvalue
    exact ⟨value.toStr, toStr_ne_nil (by simpa using hblank), rfl⟩
  · exact ⟨_, List.cons_ne_nil _ _, List.mem_singleton.1 hitem⟩
  · exact hdefault item hitem

theorem normalizedStatus_fixed [PythonText F] (returnCode returnCode' : Option Int) (status : Value F) :
    normalizedStatus returnCode' (.list (normalizedStatus returnCode status)) = normalizedStatus returnCode status := by
  have htexts := normalizedStatus_texts returnCode status
  generalize normalizedStatus returnCode status = items at htexts
  have hkept : items.filter (fun item => !item.isBlank) = items := List.filter_eq_self.2 fun item hitem => by
    obtain ⟨s, hs, rfl⟩ := htexts item hitem
    cases s with
    | nil => exact absurd rfl hs
    | cons c s => rfl
  rw [normalizedStatus, hkept]
  refine (List.map_congr_left fun item hitem => ?_).trans (List.map_id items)
  obtain ⟨s, -, rfl⟩ := htexts item hitem
  rfl

/-- A status that says something. -/
def Speaks : Value F → Prop
  | .str text => text ≠ []
  | .list items => ∃ item ∈ items, item.isBlank = false
  | _ => False

/-- A list of states without a state. -/
def BlankList (status : Value F) : Prop := ∃ items, status = .list items ∧ ¬ Speaks status

/-- A status that says nothing is the default, except of a list, which is empty. -/
theorem normalizedStatus_silent {returnCode : Option Int} {status : Value F} (h : ¬ Speaks status) :
    (normalizedStatus returnCode status = defaultStatus returnCode ∧ ¬ BlankList status) ∨
      (normalizedStatus returnCode status = [] ∧ BlankList status) := by
  cases status with
  | list items =>
    refine .inr ⟨?_, items, rfl, h⟩
    have hnone : (items.filter fun item => !item.isBlank) = [] := List.filter_eq_nil_iff.2 fun item hitem hblank =>
      h ⟨item, hitem, by simpa using hblank⟩
    rw [normalizedStatus, hnone]
    rfl
  | str text =>
    cases text with
    | nil =>
      refine .inl ⟨rfl, ?_⟩
      rintro ⟨_, h, -⟩
      cases h
    | cons c text => exact absurd (List.cons_ne_nil c text) h
  | _ =>
    refine .inl ⟨rfl, ?_⟩
    rintro ⟨_, h, -⟩
    cases h

/-- A normalised dictionary stays as it is. -/
theorem normalizedItems_fixed [PythonText F] {items : List (Str × Value F)} {value : Value F}
    (h : normalizedItems items = .ok value)
    (limit : Nat) : normalizeHistoryExitCode limit value = .ok value := by
  obtain ⟨⟨returnCode, code⟩, hcode, h⟩ := Except.bind_eq_ok.1 h
  obtain ⟨⟨signalNumber, signalId⟩, hsignal, h⟩ := Except.bind_eq_ok.1 h
  cases h
  obtain ⟨returnCode', hcode'⟩ := normalizedNumber_fixed hcode
  obtain ⟨signalNumber', hsignal'⟩ := normalizedNumber_fixed hsignal
  rw [exitCodeDict, normalizeHistoryExitCode]
  have hget : ∀ status : List (Value F), normalizedItems [("return_code", code),
      ("signal", .dict [("id", signalId), ("name", (signalParts (Value.get items "signal")).2)]),
        ("status", .list status)] =
      (do
        let (returnCode, code) ← normalizedNumber code
        let (_, signalId) ← normalizedNumber signalId
        return exitCodeDict code signalId (signalParts (Value.get items "signal")).2
          (normalizedStatus returnCode (.list status))) :=
    fun _ => rfl
  rw [hget, hcode']
  show (do
    let (_, signalId) ← normalizedNumber signalId
    return exitCodeDict code signalId _ (normalizedStatus returnCode' _)) = _
  rw [hsignal']
  show Except.ok (exitCodeDict code signalId _ (normalizedStatus returnCode' _)) = _
  rw [normalizedStatus_fixed]
  rfl

/-! ## Texts -/

/-- A text is normalised like the text without its blank ends. -/
theorem normalize_strip (limit : Nat) (text : Str) :
    normalizeHistoryExitCode limit (.str (strip text) : Value F) = normalizeHistoryExitCode limit (.str text) := by
  rw [normalize_text, normalize_text, strip_strip]

/-- A text that is no JSON is kept, or becomes a dictionary. -/
theorem codeText_cases {trimmed : Str} {value : Value F} (h : codeText trimmed = .ok value) :
    value = .str trimmed ∨ ∃ returnCode signalId : Int, value = exitCodeDict (optionalNumberDict (some returnCode))
      (optionalNumberDict (some signalId)) (.str []) (defaultStatus (some returnCode)) := by
  unfold codeText at h
  split at h
  · obtain ⟨returnCode, -, h⟩ := Except.bind_eq_ok.1 h
    obtain ⟨signalId, -, h⟩ := Except.bind_eq_ok.1 h
    cases h
    exact .inr ⟨returnCode, signalId, rfl⟩
  · cases h
    exact .inl rfl

theorem exitCodeDict_fixed [PythonText F] (returnCode signalId : Int) (limit : Nat) :
    normalizeHistoryExitCode limit (exitCodeDict (optionalNumberDict (some returnCode))
      (optionalNumberDict (some signalId)) (.str [])
      (defaultStatus (some returnCode)) : Value F) = .ok (exitCodeDict (optionalNumberDict (some returnCode))
      (optionalNumberDict (some signalId)) (.str []) (defaultStatus (some returnCode))) := by
  exact @normalizedItems_fixed F _ _ [("return_code", .int returnCode), ("signal", .int signalId)] _ rfl limit

/-- Other values are kept. -/
theorem normalize_other {limit : Nat} (value : Value F) (htext : ∀ s, value ≠ .str s := by intro _ h; cases h)
    (hdict : ∀ items, value ≠ .dict items := by intro _ h; cases h) :
      normalizeHistoryExitCode limit value = .ok value := by
  cases value with
  | str s => exact absurd rfl (htext s)
  | dict items => exact absurd rfl (hdict items)
  | _ =>
    rw [normalizeHistoryExitCode]
    all_goals first | rfl | (intro _ h; cases h) | (intro h; cases h)

/-- What comes out stays as it is. -/
theorem normalize_fixed [PythonText F] (limit : Nat) : ∀ {value normalized : Value F},
    normalizeHistoryExitCode limit value = .ok normalized → normalizeHistoryExitCode limit normalized = .ok normalized
  | .none, normalized, h => by
    rw [normalizeHistoryExitCode] at h
    cases h
    rw [normalizeHistoryExitCode]
    rfl
  | .str text, normalized, h => by
    have htext := h
    have hkept : codeText (strip text) = .ok normalized →
        normalizeHistoryExitCode limit normalized = .ok normalized := by
      intro hcode
      rcases codeText_cases hcode with rfl | ⟨returnCode, signalId, rfl⟩
      · rw [normalize_strip]
        exact htext
      · exact exitCodeDict_fixed returnCode signalId limit
    rw [normalize_text] at h
    by_cases hblank : strip text = []
    · rw [if_pos hblank] at h
      cases h
      rw [normalizeHistoryExitCode]
      rfl
    · rw [if_neg hblank] at h
      cases hloads : (Json.loads limit (strip text) : Except Json.LoadsError (Value F)) with
      | error e =>
        rw [hloads] at h
        cases e with
        | recursion => cases h
        | decode => exact hkept h
        | value => exact hkept h
      | ok parsed =>
        rw [hloads] at h
        obtain ⟨inner, hinner, h⟩ := Except.bind_eq_ok.1 h
        split at h
        · exact hkept h
        · cases h
          have hshorter := textLength_loads hblank hloads
          exact normalize_fixed limit hinner
  | .dict items, normalized, h => by
    rw [normalizeHistoryExitCode] at h
    exact normalizedItems_fixed h limit
  | .bool b, normalized, h => by
    cases (normalize_other (.bool b)).symm.trans h
    exact h
  | .int n, normalized, h => by
    cases (normalize_other (.int n)).symm.trans h
    exact h
  | .float x, normalized, h => by
    cases (normalize_other (.float x)).symm.trans h
    exact h
  | .list items, normalized, h => by
    cases (normalize_other (.list items)).symm.trans h
    exact h
termination_by value => textLength value

/-! ## Exceptions -/

section
variable (limit : Nat)

/-- What is in a value, also in the JSON of its texts. -/
inductive Occurs (u : Value F) : Value F → Prop
  | self : Occurs u u
  | item {items : List (Value F)} {w : Value F} : w ∈ items → Occurs u w → Occurs u (.list items)
  | field {items : List (Str × Value F)} {key : Str} {w : Value F} : (key, w) ∈ items → Occurs u w →
      Occurs u (.dict items)
  | text {s : Str} {w : Value F} : Json.loads limit (strip s) = .ok w → Occurs u w → Occurs u (.str s)

/-- The texts that are decoded: a text, and the text it is the JSON of. -/
inductive Decoded (s : Str) : Value F → Prop
  | self : Decoded s (.str s)
  | text {t : Str} {w : Value F} : Json.loads limit (strip t) = .ok w → Decoded s w → Decoded s (.str t)

/-- No infinity and no NaN, also in the JSON of the texts. -/
def Finite (value : Value F) : Prop := ∀ x, Occurs limit (.float x) value → ∃ n, Python.intOfFloat x = .ok n

/-- Finite numbers, texts that `json.loads` does not give up, codes `int` reads. -/
structure Tame (value : Value F) : Prop where
  finite : Finite limit value
  shallow : ∀ s, Decoded limit s value →
    Json.loads limit (strip s) ≠ (.error .recursion : Except Json.LoadsError (Value F))
  short : ∀ s, Decoded limit s value → ∀ code signal, codeMatch isDecimal (strip s) = some (code, signal) →
    (∃ n, Python.intOfStr F code = some n) ∧ ∀ text ∈ signal, ∃ n, Python.intOfStr F text = some n

variable {limit}

theorem Occurs.trans {u v w : Value F} (h : Occurs limit u v) (h' : Occurs limit v w) : Occurs limit u w := by
  induction h' with
  | self => exact h
  | item hmem _ ih => exact .item hmem ih
  | field hmem _ ih => exact .field hmem ih
  | text hloads _ ih => exact .text hloads ih

theorem Finite.of_occurs {u v : Value F} (h : Finite limit v) (hu : Occurs limit u v) : Finite limit u :=
  fun x hx => h x (hx.trans hu)

theorem Tame.of_loads {s : Str} {parsed : Value F} (h : Tame limit (.str s : Value F))
    (hloads : Json.loads limit (strip s) = .ok parsed) :
    Tame limit parsed :=
  ⟨h.finite.of_occurs (.text hloads .self), fun t ht => h.shallow t (.text hloads ht), fun t ht =>
    h.short t (.text hloads ht)⟩

omit [Python F] in
theorem mem_of_lookup : ∀ {items : List (Str × Value F)} {key : Str} {value : Value F},
    Value.lookup items key = some value → (key, value) ∈ items
  | (k, v) :: items, key, value, h => by
    rw [Value.lookup] at h
    by_cases hk : k = key
    · rw [if_pos hk, Option.some.injEq] at h
      rw [hk, h]
      exact List.mem_cons_self
    · rw [if_neg hk] at h
      exact List.mem_cons_of_mem _ (mem_of_lookup h)

theorem occurs_get {items : List (Str × Value F)} (key : Str) : Value.get items key = .none ∨
    Occurs limit (Value.get items key) (.dict items) := by
  rw [Value.get, Value.getOr]
  cases hlookup : Value.lookup items key with
  | none => exact .inl rfl
  | some value => exact .inr (.field (mem_of_lookup hlookup) .self)

/-- `_int_field` of finite numbers returns. -/
theorem intField_returns {value : Value F} (h : Finite limit value) : ∃ number, intField value = .ok number := by
  cases hread : intField value with
  | ok number => exact ⟨number, rfl⟩
  | error e =>
    obtain ⟨x, hx, hnumber⟩ := intField_error hread
    have hoccurs : Occurs limit (.float x) value := by
      unfold fieldNumber at hnumber
      split at hnumber
      next items =>
        split_ifs at hnumber
        rw [Option.some.injEq] at hnumber
        rcases @occurs_get F _ limit items "number" with hnone | hget
        · rw [hnone] at hnumber
          cases hnumber
        · rwa [hnumber] at hget
      · rw [Option.some.inj hnumber]
        exact .self
    obtain ⟨n, hn⟩ := h x hoccurs
    rw [hn] at hx
    cases hx

theorem normalizedNumber_returns {value : Value F} (h : value = .none ∨ Finite limit value) :
    ∃ r, normalizedNumber value = .ok r := by
  have hread : ∃ number, intField value = .ok number := by
    rcases h with rfl | h
    · exact ⟨none, rfl⟩
    · exact intField_returns h
  obtain ⟨number, hread⟩ := hread
  rw [normalizedNumber, hread]
  exact ⟨_, rfl⟩

theorem normalizedItems_returns {items : List (Str × Value F)} (h : Finite limit (.dict items)) :
    ∃ r, normalizedItems items = .ok r := by
  have hget : ∀ key, Value.get items key = .none ∨ Finite limit (Value.get items key) := fun key =>
    (occurs_get key).imp_right h.of_occurs
  have hsignal : (signalParts (Value.get items "signal")).1 = .none ∨
      Finite limit (signalParts (Value.get items "signal")).1 := by
    rcases hget "signal" with hnone | hfinite
    · rw [hnone]
      exact .inl rfl
    · cases hsignal : Value.get items "signal" with
      | dict fields =>
        rw [hsignal] at hfinite
        dsimp only [signalParts]
        cases hid : Value.lookup fields "id" with
        | some id => exact .inr (hfinite.of_occurs (.field (mem_of_lookup hid) .self))
        | none => exact (occurs_get "signal_id").imp_right hfinite.of_occurs
      | _ =>
        rw [hsignal] at hfinite
        exact .inr hfinite
  obtain ⟨⟨returnCode, code⟩, hcode⟩ := normalizedNumber_returns (hget "return_code")
  obtain ⟨⟨number, signalId⟩, hid⟩ := normalizedNumber_returns hsignal
  have hread : normalizedItems items = (normalizedNumber (signalParts (Value.get items "signal")).1 >>= fun id =>
      .ok (exitCodeDict code id.2 (signalParts (Value.get items "signal")).2
        (normalizedStatus returnCode (Value.get items "status")))) := by
    rw [normalizedItems, hcode]
    rfl
  rw [hread, hid]
  exact ⟨_, rfl⟩

theorem codeText_returns {s : Str} (h : Tame limit (.str s : Value F)) : ∃ r : Value F, codeText (strip s) = .ok r := by
  unfold codeText
  split
  next code signal hmatch =>
    obtain ⟨⟨n, hn⟩, hsignal⟩ := h.short s .self code signal hmatch
    have hcode : (Value.str code : Value F).toInt = .ok n := by rw [Value.toInt, hn]
    have hid : ∃ m, signalOf F signal = .ok m := by
      cases signal with
      | none => exact ⟨0, rfl⟩
      | some text =>
        obtain ⟨m, hm⟩ := hsignal text rfl
        exact ⟨m, by rw [signalOf, Value.toInt, hm]⟩
    obtain ⟨m, hid⟩ := hid
    rw [hcode]
    show ∃ r, (signalOf F signal >>= _) = .ok r
    rw [hid]
    exact ⟨_, rfl⟩
  · exact ⟨_, rfl⟩

theorem normalize_returns : ∀ {value : Value F}, Tame limit value → ∃ r, normalizeHistoryExitCode limit value = .ok r
  | .str text, h => by
    rw [normalize_text]
    by_cases hblank : strip text = []
    · exact ⟨_, if_pos hblank⟩
    · rw [if_neg hblank]
      cases hloads : (Json.loads limit (strip text) : Except Json.LoadsError (Value F)) with
      | error e =>
        cases e with
        | recursion => exact absurd hloads (h.shallow text .self)
        | decode => exact codeText_returns h
        | value => exact codeText_returns h
      | ok parsed =>
        have hshorter := textLength_loads hblank hloads
        obtain ⟨inner, hinner⟩ := normalize_returns (h.of_loads hloads)
        show ∃ r, (normalizeHistoryExitCode limit parsed >>= _) = .ok r
        rw [hinner]
        show ∃ r, (if inner.isNone then codeText (strip text) else .ok inner) = .ok r
        split
        · exact codeText_returns h
        · exact ⟨_, rfl⟩
  | .dict items, h => by
    rw [normalizeHistoryExitCode]
    exact normalizedItems_returns h.finite
  | .none, _ => ⟨_, normalize_other _⟩
  | .bool b, _ => ⟨_, normalize_other _⟩
  | .int n, _ => ⟨_, normalize_other _⟩
  | .float x, _ => ⟨_, normalize_other _⟩
  | .list items, _ => ⟨_, normalize_other _⟩
termination_by value => textLength value

end

/-! ## Twice -/

/-- A code in a string of JSON. -/
def quotedCode : Value Decimal := .str "\"2:9\""

theorem normalize_quotedCode : normalizeHistoryExitCode 8 quotedCode =
    .ok (exitCodeDict (optionalNumberDict (some 2)) (optionalNumberDict (some 9)) (.str [])
      (defaultStatus (some 2))) := by
  have houter : (Json.loads 8 (strip "\"2:9\"".toList) : Except Json.LoadsError (Value Decimal)) =
      .ok (.str "2:9") := rfl
  have hinner : (Json.loads 8 (strip "2:9".toList) : Except Json.LoadsError (Value Decimal)) = .error .decode := rfl
  have hcode : (codeText (strip "2:9".toList) : Except Py.Error (Value Decimal)) =
      .ok (exitCodeDict (optionalNumberDict (some 2)) (optionalNumberDict (some 9)) (.str [])
        (defaultStatus (some 2))) := rfl
  rw [quotedCode, normalize_text, if_neg (by decide), houter]
  dsimp only
  rw [normalize_text, if_neg (by decide), hinner]
  dsimp only
  rw [hcode]
  rfl

theorem tame_quotedCode : Tame 8 quotedCode := by
  have houter : (Json.loads 8 (strip "\"2:9\"".toList) : Except Json.LoadsError (Value Decimal)) =
      .ok (.str "2:9") := rfl
  have hinner : (Json.loads 8 (strip "2:9".toList) : Except Json.LoadsError (Value Decimal)) = .error .decode := rfl
  have hdecoded : ∀ s, Decoded 8 s quotedCode → s = "\"2:9\"".toList ∨ s = "2:9".toList := by
    intro s hs
    cases hs with
    | self => exact .inl rfl
    | text hloads hs =>
      cases houter.symm.trans hloads
      cases hs with
      | self => exact .inr rfl
      | text hloads hs => cases hinner.symm.trans hloads
  refine ⟨fun x hx => ?_, fun s hs => ?_, fun s hs code signal hmatch => ?_⟩
  · cases hx with
    | text hloads hx =>
      cases houter.symm.trans hloads
      cases hx with
      | text hloads hx => cases hinner.symm.trans hloads
  · rcases hdecoded s hs with rfl | rfl
    · rw [houter]
      exact nofun
    · rw [hinner]
      exact nofun
  · rcases hdecoded s hs with rfl | rfl
    · have hnone : codeMatch isDecimal (strip "\"2:9\"".toList) = none := by decide
      cases hnone.symm.trans hmatch
    · have hcode : codeMatch isDecimal (strip "2:9".toList) = some ("2".toList, some "9".toList) := by decide
      cases hcode.symm.trans hmatch
      exact ⟨⟨2, by decide⟩, fun text htext => ⟨9, by cases htext; decide⟩⟩

/-- The JSON of a number, and an exit code. -/
def nines (n : Nat) : Str := List.replicate n '9'

theorem strip_nines (n : Nat) : strip (nines n) = nines n := strip_eq_self
  ⟨fun c hc => by rw [List.eq_of_mem_replicate (List.mem_of_mem_head? hc)]; rfl,
    fun c hc => by rw [List.eq_of_mem_replicate (List.mem_of_getLast? hc)]; rfl⟩

theorem toInt_nines {n : Nat} (h : IsoTime.maxStrDigits < n) :
    (Value.str (nines n) : Value Decimal).toInt = .error .valueError := by
  have hread : Python.intOfStr Decimal (nines n) = none := IsoTime.pyInt_of_long
    (fun c hc => by rw [List.eq_of_mem_replicate hc]; rfl) (by rwa [nines, List.countP_replicate, if_pos (by decide)])
  rw [Value.toInt, hread]

theorem loads_nines (limit : Nat) {n : Nat} (h : IsoTime.maxStrDigits < n) :
    (Json.loads limit (nines n) : Except Json.LoadsError (Value Decimal)) = .error .value := by
  obtain ⟨n, rfl⟩ : ∃ m, n = m + 1 := ⟨n - 1, by omega⟩
  have hread : Python.intOfStr Decimal (nines (n + 1)) = none := by
    have hint := toInt_nines h
    rw [Value.toInt] at hint
    cases hread : Python.intOfStr Decimal (nines (n + 1)) with
    | none => rfl
    | some m =>
      rw [hread] at hint
      cases hint
  have hinteger : Json.integer (nines (n + 1)) = some (nines (n + 1), []) := by
    have htake : ∀ m, (nines m).takeWhile Char.isDigit = nines m ∧ (nines m).dropWhile Char.isDigit = [] := fun m => by
      have hall : ∀ c ∈ nines m, c.isDigit = true := fun c hc => by rw [List.eq_of_mem_replicate hc]; rfl
      exact ⟨List.takeWhile_eq_self_iff.2 hall, List.dropWhile_eq_nil_iff.2 hall⟩
    show (if Char.isDigit '9' then some ('9' :: (nines n).takeWhile Char.isDigit,
        (nines n).dropWhile Char.isDigit) else none) = _
    rw [if_pos (show '9'.isDigit = true from rfl), (htake n).1, (htake n).2]
    rfl
  have hnumber : (Json.number (nines (n + 1)) : Except Json.LoadsError (Value Decimal)) = .error .value := by
    unfold Json.number
    rw [hinteger]
    dsimp only [Json.fraction, Json.exponent]
    rw [if_pos ⟨rfl, rfl⟩, hread]
    rfl
  have hrun := @Json.run_numberChars Decimal _ limit (nines (n + 1)) ⟨'9', nines n, rfl, rfl⟩
    (fun c hc => by rw [List.eq_of_mem_replicate hc]; rfl) [] []
  rw [List.append_nil] at hrun
  rw [Json.loads, Json.start, hrun]
  show (Json.number (nines (n + 1)) >>= fun value => Json.result (Json.deliver value [])) = _
  rw [hnumber]
  rfl

/-- `json.loads` and, of the same text, `int` raise a `ValueError`; only the first is caught (:219, :230). -/
theorem normalize_nines (limit : Nat) {n : Nat} (h : IsoTime.maxStrDigits < n) :
    normalizeHistoryExitCode limit (.str (nines n) : Value Decimal) = .error .valueError := by
  have hnine : ∀ c ∈ nines n, c = '9' := fun c hc => List.eq_of_mem_replicate hc
  have hne : nines n ≠ [] := by
    rw [nines, Ne, List.replicate_eq_nil_iff]
    omega
  have hsigned : isSigned isDecimal (nines n) = true := by
    have hall : (nines n).all isDecimal = true := List.all_eq_true.2 fun c hc => by rw [hnine c hc]; decide
    unfold isSigned
    split
    next digits heq => cases hnine '-' (heq ▸ List.mem_cons_self)
    · rw [hall, decide_eq_true hne]
      rfl
  have hmatch : codeMatch isDecimal (nines n) = some (nines n, none) := by
    rw [codeMatch, List.splitOn_eq_singleton fun hc => by cases hnine ':' hc]
    exact if_pos hsigned
  rw [normalize_text, strip_nines, if_neg hne, loads_nines limit h]
  show codeText (nines n) = _
  rw [codeText, hmatch]
  show ((Value.str (nines n) : Value Decimal).toInt >>= _) = _
  rw [toInt_nines h]
  rfl

omit [Python F] in
theorem put_twice (record : Payload F) (key : Str) (value value' : Value F) :
    Value.get (Dict.put record key value) key = value ∧ Dict.put (Dict.put record key value) key value' =
      Dict.put record key value' := by
  induction record with
  | nil => simp [Dict.put, Value.get, Value.getOr, Value.lookup]
  | cons item record ih =>
    obtain ⟨j, w⟩ := item
    by_cases hj : j = key
    · simp [Dict.put, Value.get, Value.getOr, Value.lookup, hj]
    · obtain ⟨hget, hput⟩ := ih
      refine ⟨?_, ?_⟩
      · rw [Dict.put, if_neg hj, Value.get, Value.getOr, Value.lookup, if_neg hj]
        exact hget
      · rw [Dict.put, if_neg hj, Dict.put, if_neg hj, hput, Dict.put, if_neg hj]

/-- The store and the view normalise a record like one of them. -/
theorem record_normalized_twice [PythonText F] (limit : Nat) (record : Payload F) :
    (withExitCode limit record >>= withExitCode limit) = withExitCode limit record := by
  cases hcode : normalizeHistoryExitCode limit (Value.get record "exit_code") with
  | error e =>
    rw [withExitCode, hcode]
    rfl
  | ok code =>
    obtain ⟨hget, -⟩ := put_twice record "exit_code" code code
    have hfirst : withExitCode limit record = .ok (Dict.put record "exit_code" code) := by
      rw [withExitCode, hcode]
      rfl
    have hsecond : withExitCode limit (Dict.put record "exit_code" code) = .ok (Dict.put record "exit_code" code) := by
      rw [withExitCode, hget, normalize_fixed limit hcode]
      exact congrArg Except.ok (put_twice record "exit_code" code code).2
    rw [hfirst]
    exact hsecond

end SlurmWeb.Jobs
