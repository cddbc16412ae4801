import SlurmWeb.Jobs.ExitCode

/-!
# Exit codes of API 0.0.39 (slurmweb/slurmrestd/adapters/v0_0_39.py)

The adapter and the job history write the same structure of an exit code, each with defaults of its own.

| here | there |
| --- | --- |
| `optionalNumber`, `normalizeStatus` | `_optional_number` (:16), `_normalize_status` (:29) |
| `normalizeExitCode` | `_normalize_exit_code` (:37) |
| `normalizeHistoryExitCode` | `normalize_history_exit_code` (persistence/jobs_store.py :210) |

A missing status is one of success for the adapter when the number is 0, for the history when it is set, too;
a list without a state is kept by the history.

* `normalizers_agree_iff` — when a code is read from history the same with and without the adapter.
* `missing_code_differs` — a code with nothing in it is a success with the adapter, a failure without.
-/

namespace SlurmWeb.Slurmrestd

open Strings Py Jobs

variable {F : Type} [Python F]

/-! ## The adapter -/

def numberDict (set infinite number : Value F) : Value F :=
  .dict [("set", set), ("infinite", infinite), ("number", number)]

/-- `_optional_number` (:16) -/
def optionalNumber : Value F → Except Py.Error (Value F)
  | .dict fields => .ok (numberDict (Value.getOr fields "set" (.bool !(Value.get fields "number").isNone))
      (Value.getOr fields "infinite" (.bool false)) (Value.getOr fields "number" (.int 0)))
  | .none => .ok (numberDict (.bool false) (.bool false) (.int 0))
  | value => do
    let n ← value.toInt
    return numberDict (.bool true) (.bool false) (.int n)

/-- `_normalize_status` (:29) -/
def normalizeStatus : Value F → List (Value F)
  | .list items => (items.filter fun item => !item.isBlank).map fun item => .str item.toStr
  | value => if value.isBlank then [] else [.str value.toStr]

/-- `v == 0` -/
def equalsZero : Value F → Bool
  | .int n => n == 0
  | .bool b => !b
  | .float x => !Python.floatTruthy x
  | _ => false

/-- `signal_id` and `signal_name` (:41-48) -/
def signalOf39 : Value F → Value F × Value F
  | .dict fields => (Value.getOr fields "id" (Value.get fields "signal_id"), Value.getOr fields "name" (.str []))
  | signal => (signal, .str [])

/-- `return_code.get("number", 0)` of a normalised code, which is an object. -/
def numberIn (returnCode : Value F) : Value F := Value.getOr (dictItems returnCode) "number" (.int 0)

/-- The status after :59. -/
def statusOf39 (status returnCode : Value F) : List (Value F) :=
  if normalizeStatus status ≠ [] then normalizeStatus status
  else [.str (if equalsZero (numberIn returnCode) then "SUCCESS" else "FAILED")]

/-- `_normalize_exit_code` (:37) -/
def normalizeExitCode : Value F → Except Py.Error (Value F)
  | .dict items => do
    let returnCode ← optionalNumber (Value.get items "return_code")
    let signal := signalOf39 (Value.get items "signal")
    let signalId ← optionalNumber signal.1
    return .dict [("status", .list (statusOf39 (Value.get items "status") returnCode)), ("return_code", returnCode),
      ("signal", .dict [("id", signalId), ("name", signal.2)])]
  | value => return value

/-! ## Codes of 0.0.39 -/

/-- The fields of an optional number, each there or not. -/
structure OptionalFields (fields : List (Str × Value F)) : Prop where
  set : Value.lookup fields "set" = none ∨ ∃ b, Value.lookup fields "set" = some (.bool b)
  infinite : Value.lookup fields "infinite" = none ∨ ∃ b, Value.lookup fields "infinite" = some (.bool b)
  number : Value.lookup fields "number" = none ∨ ∃ n, Value.lookup fields "number" = some (.int n)

/-- An integer, an optional number or nothing. -/
inductive NumberOf39 : Value F → Prop
  | absent : NumberOf39 .none
  | plain (n : Int) : NumberOf39 (.int n)
  | dict {fields : List (Str × Value F)} : OptionalFields fields → NumberOf39 (.dict fields)

/-- A text, a list or nothing. -/
inductive StatusOf39 : Value F → Prop
  | absent : StatusOf39 .none
  | text (s : Str) : StatusOf39 (.str s)
  | list (items : List (Value F)) : StatusOf39 (.list items)

/-- An exit code of API 0.0.39; the signal is an object with the number in it, a number or nothing. -/
structure ExitCode39 (items : List (Str × Value F)) : Prop where
  status : StatusOf39 (Value.get items "status")
  returnCode : NumberOf39 (Value.get items "return_code")
  signalId : NumberOf39 (signalParts (Value.get items "signal")).1

/-! ## Numbers -/

/-- No infinite number without `set`. -/
def SetAlike : Value F → Prop
  | .dict fields => ¬ (Value.lookup fields "set" = none ∧ (Value.getOr fields "infinite" (.bool false)).truthy = true ∧
      (Value.lookup fields "number").isSome = true)
  | _ => True

/-- The number that is 0 is set. -/
def ZeroAlike : Value F → Prop
  | .int _ => True
  | .dict fields => ∃ n, Value.lookup fields "number" = some (.int n) ∧ (n ≠ 0 ∨
      (Value.getOr fields "set" (.bool true)).truthy = true ∧
        (Value.getOr fields "infinite" (.bool false)).truthy = false)
  | _ => False

/-- What both make of a number: its fields differ in `set` alone. -/
structure Numbers (value adapted : Value F) (direct : Option Int × Value F) : Prop where
  adapter : optionalNumber value = .ok adapted
  again : ∃ number, normalizedNumber adapted = .ok (number, adapted)
  history : normalizedNumber value = .ok direct
  same : adapted = direct.2 ↔ SetAlike value
  zero : ∃ set infinite number, adapted = numberDict set infinite number ∧
    ((equalsZero number = true ↔ direct.1 = some 0) ↔ ZeroAlike value)

theorem numbers_plain (value : Value F) (n : Option Int) (hadapter : optionalNumber value = .ok (optionalNumberDict n))
    (hhistory : normalizedNumber value = .ok (n, optionalNumberDict n)) (hset : SetAlike value)
      (hzero : ZeroAlike value ↔ n.isSome = true) :
    Numbers value (optionalNumberDict n) (n, optionalNumberDict n) := by
  refine ⟨hadapter, ?_, hhistory, iff_of_true rfl hset, ?_⟩
  · cases n with
    | none => exact ⟨none, rfl⟩
    | some n => exact ⟨some n, rfl⟩
  · cases n with
    | none => exact ⟨_, _, _, rfl, iff_of_false (fun h => by cases h.1 rfl) fun h => by cases hzero.1 h⟩
    | some n =>
      refine ⟨_, _, _, rfl, iff_of_true ?_ (hzero.2 rfl)⟩
      show (n == 0) = true ↔ some n = some 0
      rw [beq_iff_eq, Option.some.injEq]

theorem numberDict_again (b c : Bool) (n : Int) :
    ∃ number, normalizedNumber (numberDict (.bool b) (.bool c) (.int n) : Value F) =
    .ok (number, numberDict (.bool b) (.bool c) (.int n)) := by
  cases b <;> cases c <;> exact ⟨_, rfl⟩

theorem numbers_dict {fields : List (Str × Value F)} (h : OptionalFields fields) : ∃ adapted direct,
    Numbers (.dict fields) adapted direct := by
  obtain ⟨set, hset⟩ : ∃ set : Option Bool, Value.lookup fields "set" = set.map Value.bool := by
    rcases h.set with hnone | ⟨b, hb⟩
    · exact ⟨none, hnone⟩
    · exact ⟨some b, hb⟩
  obtain ⟨infinite, hinfinite⟩ : ∃ infinite :
      Option Bool, Value.lookup fields "infinite" = infinite.map Value.bool := by
    rcases h.infinite with hnone | ⟨b, hb⟩
    · exact ⟨none, hnone⟩
    · exact ⟨some b, hb⟩
  obtain ⟨number, hnumber⟩ : ∃ number : Option Int, Value.lookup fields "number" = number.map Value.int := by
    rcases h.number with hnone | ⟨n, hn⟩
    · exact ⟨none, hnone⟩
    · exact ⟨some n, hn⟩
  have hgetSet : ∀ b, Value.getOr fields "set" (.bool b) = .bool (set.getD b) := fun b => by
    rw [Value.getOr, hset]
    cases set <;> rfl
  have hgetInfinite : Value.getOr fields "infinite" (.bool false) = .bool (infinite.getD false) := by
    rw [Value.getOr, hinfinite]
    cases infinite <;> rfl
  have hgetNumber : Value.getOr fields "number" (.int 0) = .int (number.getD 0) := by
    rw [Value.getOr, hnumber]
    cases number <;> rfl
  -- the number the history reads
  let read : Option Int := if set.getD true && !infinite.getD false then number else none
  have hread : intField (.dict fields) = .ok read := by
    have hfield : fieldNumber (.dict fields) = if !set.getD true then none else if infinite.getD false then none
        else some (Value.get fields "number") := by
      rw [fieldNumber, hgetSet, hgetInfinite]
      rfl
    rw [intField, hfield, Value.get, Value.getOr, hnumber]
    show _ = Except.ok (if set.getD true && !infinite.getD false then number else none)
    cases set.getD true <;> cases infinite.getD false <;> cases number <;> rfl
  have hnumber' : Value.getOr fields "number" (.int (read.getD 0)) = .int (number.getD 0) := by
    rw [Value.getOr, hnumber]
    show _ = Value.int (number.getD 0)
    cases number with
    | none =>
      show Value.int ((if set.getD true && !infinite.getD false then none else none : Option Int).getD 0) = _
      rw [ite_self]
    | some n => rfl
  have hadapter : optionalNumber (.dict fields) =
      .ok (numberDict (.bool (set.getD number.isSome)) (.bool (infinite.getD false)) (.int (number.getD 0))) := by
    have hpresent : (!(Value.get fields "number").isNone) = number.isSome := by
      rw [Value.get, Value.getOr, hnumber]
      cases number <;> rfl
    rw [optionalNumber, hpresent, hgetSet, hgetInfinite, hgetNumber]
  have hhistory : normalizedNumber (.dict fields) =
      .ok (read, numberDict (.bool (set.getD read.isSome)) (.bool (infinite.getD false)) (.int (number.getD 0))) := by
    rw [normalizedNumber, hread]
    show Except.ok (read, Value.dict [("set", Value.getOr fields "set" (.bool read.isSome)),
        ("infinite", _), ("number", _)]) = _
    rw [hgetSet, hgetInfinite, hnumber']
    rfl
  refine ⟨_, _, hadapter, numberDict_again _ _ _, hhistory, ?_, _, _, _, rfl, ?_⟩
  · have hiff : SetAlike (.dict fields) ↔ ¬ (set = none ∧ infinite.getD false = true ∧ number.isSome = true) := by
      rw [SetAlike, hset, hgetInfinite, hnumber, Option.map_eq_none_iff, Option.isSome_map]
      rfl
    rw [hiff]
    simp only [numberDict, read, Value.dict.injEq, List.cons.injEq, Prod.mk.injEq, true_and, and_true, Value.bool.injEq]
    cases set with
    | some b => simp
    | none => cases infinite.getD false <;> cases number <;> simp
  · have hiff : ZeroAlike (.dict fields) ↔ ∃ n, number = some n ∧
        (n ≠ 0 ∨ set.getD true = true ∧ infinite.getD false = false) := by
      rw [ZeroAlike, hgetSet, hgetInfinite, hnumber]
      refine exists_congr fun n => and_congr_left fun _ => ?_
      cases number <;> simp
    rw [hiff]
    show (((number.getD 0) == 0) = true ↔ read = some 0) ↔ _
    simp only [read, beq_iff_eq]
    cases number with
    | none => cases set.getD true <;> cases infinite.getD false <;> simp
    | some n => cases set.getD true <;> cases infinite.getD false <;> simp

theorem numbers_of {value : Value F} (h : NumberOf39 value) : ∃ adapted direct, Numbers value adapted direct := by
  cases h with
  | absent => exact ⟨_, _, numbers_plain .none none rfl rfl trivial (by simp [ZeroAlike])⟩
  | plain n => exact ⟨_, _, numbers_plain (.int n) (some n) rfl rfl trivial (by simp [ZeroAlike])⟩
  | dict hfields => exact numbers_dict hfields

/-! ## The state -/

theorem normalizeStatus_speaks {status : Value F} (h : StatusOf39 status) (hspeaks : Speaks status)
    (returnCode : Option Int) :
    normalizeStatus status = normalizedStatus returnCode status ∧ normalizeStatus status ≠ [] := by
  cases h with
  | absent => cases hspeaks
  | text s =>
    cases s with
    | nil => exact absurd rfl hspeaks
    | cons c s => exact ⟨rfl, List.cons_ne_nil _ _⟩
  | list items =>
    refine ⟨rfl, ?_⟩
    obtain ⟨item, hitem, hblank⟩ := hspeaks
    have hmem : (.str item.toStr : Value F) ∈ normalizeStatus (.list items) :=
      List.mem_map_of_mem (List.mem_filter.2 ⟨hitem, by rw [hblank]; rfl⟩)
    exact List.ne_nil_of_mem hmem

theorem normalizeStatus_silent {status : Value F} (h : StatusOf39 status) (hsilent : ¬ Speaks status) :
    normalizeStatus status = [] := by
  cases h with
  | absent => rfl
  | text s =>
    cases s with
    | nil => rfl
    | cons c s => exact absurd (List.cons_ne_nil c s) hsilent
  | list items =>
    have hnone : (items.filter fun item => !item.isBlank) = [] := List.filter_eq_nil_iff.2 fun item hitem hblank =>
      hsilent ⟨item, hitem, by simpa using hblank⟩
    rw [normalizeStatus, hnone]
    rfl

/-- The state of the adapter against that of the history. -/
theorem statusOf39_iff {status : Value F} (h : StatusOf39 status) (set infinite number : Value F)
    (returnCode : Option Int) :
    statusOf39 status (numberDict set infinite number) = normalizedStatus returnCode status ↔
      Speaks status ∨ ¬ BlankList status ∧ (equalsZero number = true ↔ returnCode = some 0) := by
  by_cases hspeaks : Speaks status
  · obtain ⟨hsame, hne⟩ := normalizeStatus_speaks h hspeaks returnCode
    rw [statusOf39, if_pos hne, hsame]
    exact iff_of_true rfl (.inl hspeaks)
  · rw [statusOf39, if_neg (not_not.2 (normalizeStatus_silent h hspeaks)), or_iff_right hspeaks]
    have hnumber : numberIn (numberDict set infinite number) = number := rfl
    rw [hnumber]
    rcases @normalizedStatus_silent F _ returnCode status hspeaks with ⟨hdefault, hlist⟩ | ⟨hempty, hlist⟩
    · rw [hdefault, defaultStatus, and_iff_right hlist]
      by_cases hzero : equalsZero number = true <;> by_cases hcode : returnCode = some 0 <;> simp [hzero, hcode]
    · rw [hempty]
      exact iff_of_false (List.cons_ne_nil _ _) fun hand => hand.1 hlist

/-- The adapter's states are texts that are not empty. -/
theorem statusOf39_fixed [PythonText F] {status : Value F} (h : StatusOf39 status) (returnCode : Value F)
    (number : Option Int) :
    normalizedStatus number (.list (statusOf39 status returnCode)) = statusOf39 status returnCode := by
  by_cases hspeaks : Speaks status
  · obtain ⟨hsame, hne⟩ := normalizeStatus_speaks h hspeaks number
    rw [statusOf39, if_pos hne, hsame, normalizedStatus_fixed]
  · rw [statusOf39, if_neg (not_not.2 (normalizeStatus_silent h hspeaks))]
    cases equalsZero (numberIn returnCode) <;> rfl

/-! ## Both -/

omit [Python F] in
theorem signalOf39_eq (signal : Value F) : signalOf39 signal = signalParts signal := by
  cases signal with
  | dict fields =>
    rw [signalOf39, signalParts, Value.getOr]
    cases Value.lookup fields "id" <;> rfl
  | _ => rfl

/-- Where the history reads the same without the adapter. -/
def AgreesOn (items : List (Str × Value F)) : Prop :=
  (Speaks (Value.get items "status") ∨ ¬ BlankList (Value.get items "status") ∧
    ZeroAlike (Value.get items "return_code")) ∧
    SetAlike (Value.get items "return_code") ∧ SetAlike (signalParts (Value.get items "signal")).1

/-- **The two normalisers agree** exactly on these codes. -/
theorem normalizers_agree_iff [PythonText F] (limit : Nat) {items : List (Str × Value F)} (h : ExitCode39 items) :
    (normalizeExitCode (.dict items) >>= normalizeHistoryExitCode limit) = normalizeHistoryExitCode limit
      (.dict items) ↔ AgreesOn items := by
  obtain ⟨code, ⟨read, code'⟩, hcode⟩ := numbers_of h.returnCode
  obtain ⟨id, ⟨readId, id'⟩, hid⟩ := numbers_of h.signalId
  obtain ⟨again, hagain⟩ := hcode.again
  obtain ⟨againId, hagainId⟩ := hid.again
  obtain ⟨set, infinite, number, hfields, hzero⟩ := hcode.zero
  have hadapted : normalizeExitCode (.dict items) =
      .ok (.dict [("status", .list (statusOf39 (Value.get items "status") code)),
      ("return_code", code), ("signal", .dict
        [("id", id), ("name", (signalParts (Value.get items "signal")).2)])]) := by
    rw [normalizeExitCode, hcode.adapter]
    show (optionalNumber (signalOf39 (Value.get items "signal")).1 >>= _) = _
    rw [signalOf39_eq, hid.adapter]
    rfl
  have hfirst : (normalizeExitCode (.dict items) >>= normalizeHistoryExitCode limit) =
      .ok (exitCodeDict code id (signalParts (Value.get items "signal")).2
        (statusOf39 (Value.get items "status") code)) := by
    rw [hadapted]
    show normalizeHistoryExitCode limit (.dict _) = _
    rw [normalizeHistoryExitCode]
    show (normalizedNumber code >>= _) = _
    rw [hagain]
    show (normalizedNumber id >>= _) = _
    rw [hagainId]
    show Except.ok (exitCodeDict code id _ (normalizedStatus again (.list (statusOf39 _ code)))) = _
    rw [statusOf39_fixed h.status]
    rfl
  have hsecond : normalizeHistoryExitCode limit (.dict items) =
      .ok (exitCodeDict code' id' (signalParts (Value.get items "signal")).2
        (normalizedStatus read (Value.get items "status"))) := by
    rw [normalizeHistoryExitCode, normalizedItems, hcode.history]
    show (normalizedNumber (signalParts (Value.get items "signal")).1 >>= _) = _
    rw [hid.history]
    rfl
  rw [hfirst, hsecond, Except.ok.injEq, AgreesOn, ← hcode.same, ← hid.same, ← hzero,
    ← statusOf39_iff h.status set infinite number read, ← hfields]
  constructor
  · intro hsame
    obtain ⟨hcodes, hids, -, hstatus⟩ := exitCodeDict_inj hsame
    exact ⟨hstatus, hcodes, hids⟩
  · rintro ⟨hstatus, hcodes, hids⟩
    dsimp only at hcodes hids
    rw [hstatus, hcodes, hids]

/-- A plain return code. -/
def plainCode : List (Str × Value Decimal) := [("return_code", .int 2), ("signal", .dict [("signal_id", .int 9)])]

theorem plainCode_wellFormed : ExitCode39 plainCode := ⟨.absent, .plain 2, .plain 9⟩

theorem plainCode_agrees : AgreesOn plainCode := by
  refine ⟨.inr ⟨?_, trivial⟩, trivial, trivial⟩
  rintro ⟨_, h, -⟩
  cases h

theorem normalizers_agree_iff_plainCode :
    (normalizeExitCode (.dict plainCode) >>= normalizeHistoryExitCode 8) = normalizeHistoryExitCode
      8 (.dict plainCode) :=
  (normalizers_agree_iff 8 plainCode_wellFormed).2 plainCode_agrees

/-- Nothing is known of the code: a success with the adapter, a failure without. -/
theorem missing_code_differs : ExitCode39 ([] : List (Str × Value Decimal)) ∧
    (normalizeExitCode (.dict []) >>= normalizeHistoryExitCode 8) ≠ normalizeHistoryExitCode 8
      (.dict [] : Value Decimal) := by
  refine ⟨⟨.absent, .absent, .absent⟩, fun hsame => ?_⟩
  have hadapter : (normalizeExitCode (.dict []) >>= normalizeHistoryExitCode 8) =
      .ok (exitCodeDict (optionalNumberDict none) (optionalNumberDict none) (.str [])
        ([.str "SUCCESS"] : List (Value Decimal))) := by
    show normalizeHistoryExitCode 8 (.dict _) = _
    rw [normalizeHistoryExitCode]
    rfl
  have hhistory : normalizeHistoryExitCode 8 (.dict []) =
      .ok (exitCodeDict (optionalNumberDict none) (optionalNumberDict none) (.str [])
        ([.str "FAILED"] : List (Value Decimal))) := by
    rw [normalizeHistoryExitCode]
    rfl
  rw [hadapter, hhistory, Except.ok.injEq] at hsame
  obtain ⟨-, -, -, hstatus⟩ := exitCodeDict_inj hsame
  exact absurd (Value.str.inj (List.cons.inj hstatus).1) (by decide)

end SlurmWeb.Slurmrestd
