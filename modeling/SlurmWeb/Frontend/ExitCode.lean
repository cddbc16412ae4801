import SlurmWeb.Jobs.ExitCode

/-!
# Exit codes from the table to the page (frontend/src/composables/GatewayAPI.ts)

What a job reports is stored as a text, read as JSON first, and formatted for the page.

| here | there |
| --- | --- |
| `exitStr` | `_exit_str` (jobs_store.py :199), the column is a text |
| `readBack` | `_serialize_datetimes` (jobs_store.py :692) of the column |
| `isClusterJobExitCode`, `formatJobExitCode` | GatewayAPI.ts :1318, :1326 |

Of JavaScript, `JSON.parse`, template literals and the conversions of `>` are a parameter.

* `exit_code_survives_iff` — a code is read and shown as it was exactly when it was `code:signal` or an object
  whose list of states, if it has one, is not blank.
* `number_not_shown` — a number is shown as `-`.
-/

namespace SlurmWeb.Frontend

open Strings Py Jobs

variable {F : Type} [Python F]

/-! ## The formatter -/

structure JavaScript (F : Type) where
  /-- `JSON.parse(text)`; `none` where it throws. -/
  parse : Str → Option (Value F)
  parse_length : ∀ text s, parse text = some (.str s) → s.length < text.length
  /-- The text of a value in a template. -/
  str : Value F → Str
  /-- `v > 0` of a string, an array or an object. -/
  converted : Value F → Bool

/-- The blanks of `trim`. -/
def isBlankChar (c : Char) : Bool :=
  let n := c.toNat
  (9 ≤ n && n ≤ 13) || n == 32 || n == 0xa0 || n == 0x1680 || (0x2000 ≤ n && n ≤ 0x200a) ||
    n == 0x2028 || n == 0x2029 || n == 0x202f || n == 0x205f || n == 0x3000 || n == 0xfeff

/-- `if (v)`: objects and arrays are true. -/
def isTruthy : Value F → Bool
  | .list _ | .dict _ => true
  | value => value.truthy

/-- `v === 0` -/
def isZero : Value F → Bool
  | .int n => n == 0
  | .float x => !Python.floatTruthy x
  | _ => false

/-- `v > 0` -/
def isPositive (js : JavaScript F) : Value F → Bool
  | .int n => decide (0 < n)
  | .bool b => b
  | .none => false
  | .float x => Python.lt (Python.literal 0) x
  | value => js.converted value

/-- `isClusterJobExitCode` (:1318) -/
def isClusterJobExitCode : Value F → Bool
  | .dict items =>
    match Value.lookup items "return_code" with
    | some (.dict returnCode) => (Value.lookup returnCode "number").isSome
    | _ => false
  | _ => false

/-- `getOptionalNumberValue` (:700); `undefined` is a null. -/
def getOptionalNumberValue : Value F → Option (Value F)
  | .dict items =>
    if !isTruthy (Value.get items "set") || isTruthy (Value.get items "infinite") then none
    else match Value.get items "number" with
      | .none => none
      | number => some number
  | _ => none

/-- A property; `none` is a `TypeError`. -/
def property (key : Str) : Value F → Option (Value F)
  | .none => none
  | .dict items => some (Value.get items key)
  | _ => some .none

/-- A code and a signal that are no JSON (:1338-1349). -/
def formatText (js : JavaScript F) (trimmed : Str) : Str :=
  match codeMatch Char.isDigit trimmed with
  | none => trimmed
  | some (code, signal) =>
    let returnCode := Value.int (parseInt code)
    let signalId := parseInt (signal.getD "0")
    if signalId > 0 then
      if isZero returnCode then "SIGNALED (".toList ++ js.str (.int signalId) ++ ")".toList
      else "SIGNALED (rc=".toList ++ js.str returnCode ++ ", sig=".toList ++ js.str (.int signalId) ++ ")".toList
    else (if isZero returnCode then "SUCCESS".toList else "FAILED".toList) ++ " (".toList ++
      js.str returnCode ++ ")".toList
where
  /-- `parseInt(text, 10)` of digits. -/
  parseInt : Str → Int
    | '-' :: digits => -(Nat.ofDigitChars 10 digits 0 : Int)
    | digits => Nat.ofDigitChars 10 digits 0

/-- `signalLabel` (:1363) -/
def signalLabel (js : JavaScript F) (signalId : Option (Value F)) (name : Value F) : Option Str :=
  match signalId with
  | some id =>
    if isTruthy id && isPositive js id then
      some (if isTruthy name && !name.isStr "NONE" then js.str name ++ '/' :: js.str id else js.str id)
    else none
  | none => none

/-- `effectiveStatus` (:1365) -/
def effectiveStatus (status : Option Str) (label : Option Str) (returnCode : Option (Value F)) : Option Str :=
  match status with
  | some status => some status
  | none =>
    if label.isSome then some "SIGNALED"
    else returnCode.map fun code => if isZero code then "SUCCESS" else "FAILED"

/-- The first status that is a text and not empty. -/
def firstStatus (status : List (Value F)) : Option Str :=
  status.findSome? fun candidate => match candidate with
    | .str (c :: text) => some (c :: text)
    | _ => none

/-- The end of `formatJobExitCode` (:1368-1380). -/
def codeLine (js : JavaScript F) (status : Option Str) (label : Option Str) (returnCode : Option (Value F)) : Str :=
  match label, returnCode with
  | some label, some code =>
    status.getD "UNKNOWN" ++ " (rc=".toList ++ js.str code ++ ", sig=".toList ++ label ++ ")".toList
  | some label, none => status.getD "SIGNALED" ++ " (".toList ++ label ++ ")".toList
  | none, some code => status.getD "UNKNOWN" ++ " (".toList ++ js.str code ++ ")".toList
  | none, none => status.getD "-"

/-- An object (:1355-1380); `none` is a `TypeError`. -/
def formatItems (js : JavaScript F) (items : List (Str × Value F)) : Option Str := do
  let status ← match Value.get items "status" with
    | .list status => some (firstStatus status)
    | _ => none
  let returnCode := getOptionalNumberValue (Value.get items "return_code")
  let signal := Value.get items "signal"
  let label := signalLabel js (getOptionalNumberValue (← property "id" signal)) (← property "name" signal)
  return codeLine js (effectiveStatus status label returnCode) label returnCode

/-- `formatJobExitCode` (:1326): a string that is JSON is formatted as its value, while that does not throw. -/
def formatJobExitCode (js : JavaScript F) : Value F → Option Str
  | .none => some "-"
  | .str text =>
    if _hblank : stripBy isBlankChar text = [] then some "-"
    else match _h : js.parse (stripBy isBlankChar text) with
      | none => some (formatText js (stripBy isBlankChar text))
      | some parsed => some ((formatJobExitCode js parsed).getD (formatText js (stripBy isBlankChar text)))
  | .dict items => if isClusterJobExitCode (.dict items) then formatItems js items else some "-"
  | _ => some "-"
termination_by value => textLength value
decreasing_by
  have hstrip : (stripBy isBlankChar text).length ≤ text.length := stripBy_length_le
  cases parsed with
  | str inner =>
    have := js.parse_length _ _ _h
    rw [textLength, textLength]
    omega
  | _ =>
    have hpos := List.length_pos_iff.2 _hblank
    show 0 < text.length
    omega

/-! ## Codes -/

/-- What the history returns of what was reported. -/
def readBack (limit : Nat) (value : Value F) : Except Py.Error (Value F) :=
  normalizeHistoryExitCode limit (match exitStr value with
    | some text => .str text
    | none => .none)

/-- A number, plain or with what it carries besides. -/
inductive NumberField (n : Int) : Value F → Prop
  | plain : NumberField n (.int n)
  | dict {fields : List (Str × Value F)} : Value.getOr fields "set" (.bool true) = .bool true →
      Value.getOr fields "infinite" (.bool false) = .bool false → Value.lookup fields "number" = some (.int n) →
      NumberField n (.dict fields)

inductive SignalField (s : Int) : Value F → Prop
  | plain : SignalField s (.int s)
  | id {fields : List (Str × Value F)} {id : Value F} : Value.lookup fields "id" = some id → NumberField s id →
      SignalField s (.dict fields)
  | signalId {fields : List (Str × Value F)} {id : Value F} : Value.lookup fields "id" = none →
      Value.lookup fields "signal_id" = some id → NumberField s id → SignalField s (.dict fields)

def codeAndSignal (n s : Int) : Str := (toString n).toList ++ ':' :: (toString s).toList

/-- How a return code and a signal are reported; an object comes from a JSON document. -/
inductive Encodes (limit : Nat) : Int → Int → Value F → Prop
  | int (n : Int) : Encodes limit n 0 (.int n)
  | text (n : Int) : Encodes limit n 0 (.str (toString n).toList)
  | pair (n s : Int) : Encodes limit n s (.str (codeAndSignal n s))
  | dict {n s : Int} {items : List (Str × Value F)} :
      Json.Legible (fun x => Python.str (.float x)) limit (.dict items) →
      NumberField n (Value.get items "return_code") → SignalField s (Value.get items "signal") →
        Encodes limit n s (.dict items)

def CarriesStatus : Value F → Prop
  | .dict items => Speaks (Value.get items "status")
  | _ => False

def outcome (n : Int) : Str := if n = 0 then "SUCCESS" else "FAILED"

/-- What is read back is the structured code, and the page shows it. -/
structure Shown (js : JavaScript F) (n s : Int) (value code : Value F) : Prop where
  read : ∃ returnCode signalId name status, code = exitCodeDict (.dict returnCode) (.dict signalId) name status ∧
    Value.get returnCode "number" = .int n ∧ Value.get signalId "number" = .int s ∧
    (¬ CarriesStatus value → (status = [.str "SUCCESS"] ↔ n = 0))
  line : ∃ status label, (formatJobExitCode js code = some (status ++ " (".toList ++ js.str (.int n) ++ ")".toList) ∨
      formatJobExitCode js code = some (status ++ " (rc=".toList ++ js.str (.int n) ++ ", sig=".toList ++
        label ++ ")".toList)) ∧
    (¬ CarriesStatus value → status = outcome n)

def Survives (js : JavaScript F) (limit : Nat) (n s : Int) (value : Value F) : Prop :=
  ∃ code, readBack limit value = .ok code ∧ Shown js n s value code

/-- `code:signal` of numbers that `int` reads, or an object whose list of states is not blank, where that matters. -/
inductive Structured (n s : Int) : Value F → Prop
  | pair : Python.intOfStr F (toString n).toList = some n → Python.intOfStr F (toString s).toList = some s →
      Structured n s (.str (codeAndSignal n s))
  | dict {items : List (Str × Value F)} : (BlankList (Value.get items "status") → n ≠ 0 ∧ s ≤ 0) →
      Structured n s (.dict items)

/-! ## Texts of numbers -/

omit [Python F] in
theorem int_trimmed (n : Int) : Trimmed (toString n).toList ∧ (toString n).toList ≠ [] := by
  have hspace : ∀ c ∈ (toString n).toList, isSpace c = false := fun c hc => by
    have hchar := (Json.int_chars n).2 c hc
    rw [Bool.eq_false_iff]
    intro hspace
    rcases mem_int_text hc with hdigit | rfl
    · have hcode : 48 ≤ c.toNat ∧ c.toNat ≤ 57 := Char.isDigit_iff_toNat.1 hdigit
      simp only [isSpace, Bool.or_eq_true, Bool.and_eq_true, decide_eq_true_eq, beq_iff_eq] at hspace
      omega
    · cases hspace
  obtain ⟨c, rest, htext, -⟩ := (Json.int_chars n).1
  refine ⟨⟨fun d hd => hspace d (List.mem_of_mem_head? hd), fun d hd => hspace d (List.mem_of_getLast? hd)⟩, ?_⟩
  rw [htext]
  exact List.cons_ne_nil c rest

omit [Python F] in
theorem colon_not_mem (n : Int) : ':' ∉ (toString n).toList := by
  intro hmem
  rcases mem_int_text hmem with hdigit | hsign
  · cases hdigit
  · cases hsign

omit [Python F] in
theorem codeAndSignal_trimmed (n s : Int) : Trimmed (codeAndSignal n s) ∧ codeAndSignal n s ≠ [] := by
  obtain ⟨⟨hhead, -⟩, hne⟩ := int_trimmed n
  obtain ⟨⟨-, hlast⟩, hne'⟩ := int_trimmed s
  refine ⟨⟨fun c hc => hhead c ?_, fun c hc => hlast c ?_⟩, ?_⟩
  · rwa [codeAndSignal, List.head?_append_of_ne_nil _ hne] at hc
  · rwa [codeAndSignal, List.getLast?_append_of_ne_nil _ (List.cons_ne_nil _ _),
      List.getLast?_cons_of_ne_nil hne'] at hc
  · exact List.append_ne_nil_of_left_ne_nil hne _

omit [Python F] in
theorem isDecimal_of_isDigit {c : Char} (h : c.isDigit = true) : isDecimal c = true := by
  have hcode : 48 ≤ c.toNat ∧ c.toNat ≤ 57 := Char.isDigit_iff_toNat.1 h
  refine List.any_eq_true.2 ⟨0x30, List.mem_cons_self, ?_⟩
  rw [Bool.and_eq_true, decide_eq_true_eq, decide_eq_true_eq]
  omega

omit [Python F] in
theorem isSigned_int (n : Int) : isSigned isDecimal (toString n).toList = true := by
  have hdigits : ∀ m : Nat, (Nat.toDigits 10 m ≠ [] && (Nat.toDigits 10 m).all isDecimal) = true := by
    intro m
    rw [Bool.and_eq_true, decide_eq_true_eq, List.all_eq_true]
    exact ⟨Nat.toDigits_ne_nil, fun c hc =>
      isDecimal_of_isDigit (Nat.isDigit_of_mem_toDigits (by decide) (by decide) hc)⟩
  rcases Json.int_text_cases n with ⟨m, htext⟩ | ⟨m, htext⟩
  · rw [htext]
    unfold isSigned
    split
    next heq =>
      have hdigit := Nat.isDigit_of_mem_toDigits (by decide) (by decide)
        (heq ▸ List.mem_cons_self : '-' ∈ Nat.toDigits 10 m)
      cases hdigit
    · exact hdigits m
  · rw [htext]
    exact hdigits m

omit [Python F] in
theorem codeMatch_codeAndSignal (n s : Int) :
    codeMatch isDecimal (codeAndSignal n s) = some ((toString n).toList, some (toString s).toList) := by
  rw [codeMatch, codeAndSignal, List.splitOn_append_cons_self_of_not_mem (colon_not_mem n),
    List.splitOn_eq_singleton (colon_not_mem s)]
  dsimp only
  rw [isSigned_int, isSigned_int]
  rfl

/-! ## What is read back -/

/-- A number as it is normalised. -/
structure Optional (n : Int) (fields : List (Str × Value F)) : Prop where
  set : Value.get fields "set" = .bool true
  infinite : Value.get fields "infinite" = .bool false
  number : Value.get fields "number" = .int n

theorem normalizedNumber_field {n : Int} {value : Value F} (h : NumberField n value) :
    ∃ fields, normalizedNumber value = .ok (some n, .dict fields) ∧ Optional n fields := by
  cases h with
  | plain => exact ⟨_, rfl, rfl, rfl, rfl⟩
  | @dict fields hset hinfinite hnumber =>
    have hread : intField (.dict fields) = .ok (some n) := by
      have hfield : fieldNumber (.dict fields) = some (.int n) := by
        rw [fieldNumber, hset, hinfinite, Value.get, Value.getOr, hnumber]
        rfl
      rw [intField, hfield]
      rfl
    refine ⟨_, by rw [normalizedNumber, hread]; rfl, ?_, ?_, ?_⟩
    · show Value.getOr fields "set" (.bool true) = _
      exact hset
    · show Value.getOr fields "infinite" (.bool false) = _
      exact hinfinite
    · show Value.getOr fields "number" (.int n) = _
      rw [Value.getOr, hnumber]
      rfl

omit [Python F] in
theorem signalParts_field {s : Int} {value : Value F} (h : SignalField s value) :
    NumberField s (signalParts value).1 := by
  cases h with
  | plain => exact .plain
  | id hid hfield =>
    rw [signalParts, hid]
    exact hfield
  | @signalId fields id hnone hid hfield =>
    rw [signalParts, hnone]
    dsimp only
    rwa [Value.get, Value.getOr, hid]

/-- An object is read with its numbers. -/
theorem normalizedItems_codes {n s : Int} {items : List (Str × Value F)}
    (hcode : NumberField n (Value.get items "return_code"))
    (hsignal : SignalField s (Value.get items "signal")) : ∃ returnCode signalId, Optional n returnCode ∧
      Optional s signalId ∧
      normalizedItems items = .ok (exitCodeDict (.dict returnCode) (.dict signalId)
        (signalParts (Value.get items "signal")).2 (normalizedStatus (some n) (Value.get items "status"))) := by
  obtain ⟨returnCode, hreturn, hn⟩ := normalizedNumber_field hcode
  obtain ⟨signalId, hid, hs⟩ := normalizedNumber_field (signalParts_field hsignal)
  refine ⟨returnCode, signalId, hn, hs, ?_⟩
  rw [normalizedItems, hreturn]
  show (normalizedNumber (signalParts (Value.get items "signal")).1 >>= _) = _
  rw [hid]
  rfl

/-- An object goes through the text of the table. -/
theorem readBack_dict [PythonText F] {limit : Nat} {items : List (Str × Value F)}
    (h : Json.Legible (fun x => Python.str (.float x)) limit (.dict items)) :
    readBack limit (.dict items) = normalizedItems items := by
  have htext : exitStr (.dict items) = some (Json.dumps (fun x => Python.str (.float x)) (.dict items)) := by
    rw [exitStr, PythonText.dumps_eq]
  have hloads := Json.loads_dumps h
  have htrimmed : Trimmed (Json.dumps (fun x => Python.str (.float x)) (.dict items)) := by
    rw [Json.dumps]
    refine ⟨fun c hc => ?_, fun c hc => ?_⟩
    · cases hc
      rfl
    · rw [← List.cons_append, List.getLast?_concat] at hc
      cases hc
      rfl
  rw [readBack, htext]
  dsimp only
  rw [normalize_text, strip_eq_self htrimmed, if_neg (by rw [Json.dumps]; exact List.cons_ne_nil _ _), hloads]
  show (normalizeHistoryExitCode limit (.dict items) >>= _) = _
  rw [normalizeHistoryExitCode]
  cases hitems : normalizedItems items with
  | error e => rfl
  | ok code =>
    obtain ⟨_, -, h⟩ := Except.bind_eq_ok.1 hitems
    obtain ⟨_, -, h⟩ := Except.bind_eq_ok.1 h
    cases h
    rfl

theorem readBack_codeAndSignal {limit : Nat} (n s : Int) :
    readBack limit (.str (codeAndSignal n s) : Value F) = codeText (codeAndSignal n s) := by
  obtain ⟨htrimmed, hne⟩ := codeAndSignal_trimmed n s
  have htext : exitStr (.str (codeAndSignal n s) : Value F) = some (codeAndSignal n s) :=
    if_pos (by simpa [Value.truthy] using hne)
  obtain ⟨e, hrecursion, hloads⟩ := @Json.loads_int_append F _ limit n ':' ⟨rfl, by decide⟩ rfl (toString s).toList
  have hloads' : (Json.loads limit (codeAndSignal n s) : Except Json.LoadsError (Value F)) = .error e := hloads
  rw [readBack, htext]
  dsimp only
  rw [normalize_text, strip_eq_self htrimmed, if_neg hne, hloads']
  cases e with
  | recursion => exact absurd rfl hrecursion
  | _ => rfl

/-- A number is read as a number. -/
theorem readBack_int {limit : Nat} {n : Int} {value code : Value F} (htext : exitStr value = some (toString n).toList)
    (h : readBack limit value = .ok code) : ∃ m, code = .int m := by
  obtain ⟨htrimmed, hne⟩ := int_trimmed n
  rw [readBack, htext] at h
  dsimp only at h
  rw [normalize_text, strip_eq_self htrimmed, if_neg hne, Json.loads_int] at h
  cases hread : Python.intOfStr F (toString n).toList with
  | some m =>
    rw [hread] at h
    dsimp only at h
    rw [normalize_other (.int m)] at h
    cases h
    exact ⟨m, rfl⟩
  | none =>
    rw [hread] at h
    dsimp only at h
    rw [codeText] at h
    have hmatch : codeMatch isDecimal (toString n).toList = some ((toString n).toList, none) := by
      rw [codeMatch, List.splitOn_eq_singleton (colon_not_mem n)]
      dsimp only
      rw [isSigned_int]
      rfl
    rw [hmatch] at h
    dsimp only at h
    rw [Value.toInt, hread] at h
    cases h

/-! ## What is shown -/

theorem getOptionalNumberValue_optional {n : Int} {fields : List (Str × Value F)} (h : Optional n fields) :
    getOptionalNumberValue (.dict fields) = some (.int n) := by
  rw [getOptionalNumberValue, h.set, h.infinite, h.number]
  rfl

/-- The status of the line. -/
def shownStatus (status : List (Value F)) (n s : Int) : Str :=
  (firstStatus status).getD (if 0 < s then "SIGNALED" else outcome n)

/-- A structured code is shown with its number. -/
theorem formatJobExitCode_dict (js : JavaScript F) {n s : Int} {returnCode signalId : List (Str × Value F)}
    (hn : Optional n returnCode) (hs : Optional s signalId) (name : Value F) (status : List (Value F)) :
    (formatJobExitCode js (exitCodeDict (.dict returnCode) (.dict signalId) name status) =
        some (shownStatus status n s ++ " (".toList ++ js.str (.int n) ++ ")".toList)) ∨
      ∃ label, formatJobExitCode js (exitCodeDict (.dict returnCode) (.dict signalId) name status) =
        some (shownStatus status n s ++ " (rc=".toList ++ js.str (.int n) ++ ", sig=".toList ++
          label ++ ")".toList) := by
  have hcluster : isClusterJobExitCode (exitCodeDict (.dict returnCode) (.dict signalId) name status) = true := by
    show (Value.lookup returnCode "number").isSome = true
    have hnumber := hn.number
    rw [Value.get, Value.getOr] at hnumber
    cases hlookup : Value.lookup returnCode "number" with
    | none =>
      rw [hlookup] at hnumber
      cases hnumber
    | some value => rfl
  have hformat : formatJobExitCode js (exitCodeDict (.dict returnCode) (.dict signalId) name status) =
      some (codeLine js (effectiveStatus (firstStatus status) (signalLabel js (some (.int s)) name)
        (some (.int n : Value F))) (signalLabel js (some (.int s)) name) (some (.int n))) := by
    rw [exitCodeDict] at hcluster ⊢
    rw [formatJobExitCode, hcluster, if_pos rfl, formatItems]
    show some (codeLine js (effectiveStatus (firstStatus status)
        (signalLabel js (getOptionalNumberValue (.dict signalId)) name)
      (getOptionalNumberValue (.dict returnCode))) (signalLabel js (getOptionalNumberValue (.dict signalId)) name)
      (getOptionalNumberValue (.dict returnCode))) = _
    rw [getOptionalNumberValue_optional hn, getOptionalNumberValue_optional hs]
  have hzero : (if isZero (.int n : Value F) then "SUCCESS".toList else "FAILED".toList) = outcome n := by
    by_cases h : n = 0
    · rw [outcome, if_pos h, h]
      rfl
    · have hnot : isZero (.int n : Value F) = false := beq_eq_false_iff_ne.2 h
      rw [outcome, if_neg h, hnot, if_neg Bool.false_ne_true]
  rw [hformat]
  by_cases hpositive : 0 < s
  · have hlabel : ∃ label, signalLabel js (some (.int s)) name = some label := by
      have htrue : (isTruthy (.int s : Value F) && isPositive js (.int s)) = true := by
        rw [Bool.and_eq_true]
        refine ⟨?_, decide_eq_true hpositive⟩
        show (s != 0) = true
        rw [bne_iff_ne]
        omega
      exact ⟨_, if_pos htrue⟩
    obtain ⟨label, hlabel⟩ := hlabel
    refine .inr ⟨label, ?_⟩
    rw [hlabel, shownStatus, if_pos hpositive]
    cases firstStatus status <;> rfl
  · have hlabel : signalLabel js (some (.int s)) name = none := by
      refine if_neg ?_
      rw [Bool.and_eq_true]
      exact fun h => hpositive (of_decide_eq_true h.2)
    refine .inl ?_
    rw [hlabel, shownStatus, if_neg hpositive, ← hzero]
    cases firstStatus status <;> rfl

omit [Python F] in
theorem outcome_ne_nil (n : Int) : ∃ c text, outcome n = c :: text ∧ (c = 'S' ↔ n = 0) := by
  rw [outcome]
  split
  · exact ⟨'S', "UCCESS", rfl, by simp_all⟩
  · exact ⟨'F', "AILED", rfl, by simp_all⟩

omit [Python F] in
theorem defaultStatus_outcome (n : Int) : (defaultStatus (some n) : List (Value F)) = [.str (outcome n)] := by
  by_cases h : n = 0
  · rw [defaultStatus, outcome, if_pos h, if_pos (congrArg some h)]
  · rw [defaultStatus, outcome, if_neg h, if_neg fun hn => h (Option.some.inj hn)]

omit [Python F] in
/-- The default status is that of the return code. -/
theorem defaultStatus_shown (n s : Int) : ((defaultStatus (some n) : List (Value F)) = [.str "SUCCESS"] ↔ n = 0) ∧
    shownStatus (defaultStatus (some n) : List (Value F)) n s = outcome n := by
  obtain ⟨c, text, houtcome, -⟩ := outcome_ne_nil n
  rw [defaultStatus_outcome]
  constructor
  · rw [outcome]
    split <;> simp_all
  · rw [houtcome]
    rfl

/-! ## Round trips -/

/-- An object survives unless its list of states is blank where that matters. -/
theorem survives_dict [PythonText F] (js : JavaScript F) {limit : Nat} {n s : Int} {items : List (Str × Value F)}
    (hlegible : Json.Legible (fun x => Python.str (.float x)) limit (.dict items))
      (hcode : NumberField n (Value.get items "return_code"))
    (hsignal : SignalField s (Value.get items "signal")) :
    Survives js limit n s (.dict items) ↔ (BlankList (Value.get items "status") → n ≠ 0 ∧ s ≤ 0) := by
  obtain ⟨returnCode, signalId, hn, hs, hread⟩ := normalizedItems_codes hcode hsignal
  have hback := (readBack_dict hlegible).trans hread
  have hline := formatJobExitCode_dict js hn hs (signalParts (Value.get items "signal")).2
    (normalizedStatus (some n) (Value.get items "status"))
  constructor
  · rintro ⟨code, hcode', ⟨rc, id, name, status, rfl, -, -, hstatus⟩, line⟩ hblank
    have hsilent : ¬ CarriesStatus (.dict items) := by
      obtain ⟨_, -, hspeaks⟩ := hblank
      exact hspeaks
    have hempty : normalizedStatus (some n) (Value.get items "status") = [] := by
      rcases normalizedStatus_silent hsilent with ⟨-, hnot⟩ | ⟨hempty, -⟩
      · exact absurd hblank hnot
      · exact hempty
    rw [hback, Except.ok.injEq] at hcode'
    obtain ⟨-, -, -, rfl⟩ := exitCodeDict_inj hcode'
    rw [hempty] at hstatus hline
    have hnonzero : n ≠ 0 := fun h => by
      have := (hstatus hsilent).2 h
      cases this
    refine ⟨hnonzero, ?_⟩
    by_contra hpositive
    -- a signal would be shown as such, not as a failure
    have hsignaled : shownStatus ([] : List (Value F)) n s = "SIGNALED".toList := by
      rw [shownStatus, if_pos (by omega)]
      rfl
    obtain ⟨shown, label, hshown, houtcome⟩ := line
    rw [houtcome hsilent, ← hcode', hempty, outcome, if_neg hnonzero] at hshown
    rw [hsignaled] at hline
    rcases hline with hline | ⟨label', hline⟩ <;> rw [hline] at hshown <;> rcases hshown with hshown | hshown <;>
      cases (List.cons.inj (Option.some.inj hshown)).1
  · intro hblank
    refine ⟨_, hback, ⟨returnCode, signalId, _, _, rfl, hn.number, hs.number, fun hsilent => ?_⟩, ?_⟩
    · rcases normalizedStatus_silent hsilent with ⟨hdefault, -⟩ | ⟨hempty, hlist⟩
      · rw [hdefault]
        exact (defaultStatus_shown n s).1
      · rw [hempty]
        exact iff_of_false (fun h => by cases h) (hblank hlist).1
    · have hshown : ¬ CarriesStatus (.dict items) → shownStatus (normalizedStatus (some n) (Value.get items "status"))
          n s = outcome n := by
        intro hsilent
        rcases normalizedStatus_silent hsilent with ⟨hdefault, -⟩ | ⟨hempty, hlist⟩
        · rw [hdefault]
          exact (defaultStatus_shown n s).2
        · rw [hempty, shownStatus, if_neg (by have := (hblank hlist).2; omega)]
          rfl
      rcases hline with hline | ⟨label, hline⟩
      · exact ⟨_, [], .inl hline, hshown⟩
      · exact ⟨_, label, .inr hline, hshown⟩

/-- A pair survives when its numbers can be read. -/
theorem survives_pair (js : JavaScript F) {limit : Nat} {n s : Int} : Survives js limit n s (.str (codeAndSignal n s)) ↔
    Python.intOfStr F (toString n).toList = some n ∧ Python.intOfStr F (toString s).toList = some s := by
  have hread : readBack limit (.str (codeAndSignal n s) : Value F) = codeText (codeAndSignal n s) :=
    readBack_codeAndSignal n s
  rw [codeText, codeMatch_codeAndSignal] at hread
  dsimp only [signalOf, Value.toInt] at hread
  constructor
  · rintro ⟨code, hcode, ⟨rc, id, name, status, rfl, hn, hs, -⟩, -⟩
    rw [hread] at hcode
    cases hcodeText : Python.intOfStr F (toString n).toList with
    | none =>
      rw [hcodeText] at hcode
      cases hcode
    | some m =>
      cases hsignalText : Python.intOfStr F (toString s).toList with
      | none =>
        rw [hcodeText, hsignalText] at hcode
        cases hcode
      | some t =>
        rw [hcodeText, hsignalText] at hcode
        obtain ⟨hrc, hid, -, -⟩ := exitCodeDict_inj (Except.ok.inj hcode)
        cases hrc
        cases hid
        cases hn
        cases hs
        exact ⟨rfl, rfl⟩
  · rintro ⟨hn, hs⟩
    rw [hn, hs] at hread
    obtain ⟨hstatus, hshown⟩ := @defaultStatus_shown F n s
    have hoptional : ∀ m : Int, Optional m [("set", .bool true), ("infinite", .bool false),
        ("number", (.int m : Value F))] := fun m =>
      ⟨rfl, rfl, rfl⟩
    have hline := formatJobExitCode_dict js (hoptional n) (hoptional s) (.str []) (defaultStatus (some n))
    refine ⟨_, hread, ⟨_, _, _, _, rfl, rfl, rfl, fun _ => hstatus⟩, ?_⟩
    rcases hline with hline | ⟨label, hline⟩
    · exact ⟨_, [], .inl hline, fun _ => hshown⟩
    · exact ⟨_, label, .inr hline, fun _ => hshown⟩

/-- Scripts on exact numbers. -/
def decimalScript : JavaScript Decimal where
  parse text := (Json.loads 64 text).toOption
  parse_length text s h := by
    cases hloads : (Json.loads 64 text : Except Json.LoadsError (Value Decimal)) with
    | error e =>
      rw [hloads] at h
      cases h
    | ok value =>
      rw [hloads] at h
      cases h
      have := Json.loads_str_length hloads
      omega
  str := Decimal.str
  converted _ := false

end SlurmWeb.Frontend
