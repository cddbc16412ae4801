import SlurmWeb.Lib.PyValue
import SlurmWeb.Lib.Dict

/-!
# `json.loads`

The decoder as a machine that reads one code point after the other, with a stack of the lists and
objects it is inside of. Like Python's it takes `NaN` and `Infinity`, keeps the last of two values
under one key, and does not read the number or the string it is in to the end before it knows that
the text is wrong.

| here | there |
| --- | --- |
| `begin` | `_scan_once` (json/scanner.py) |
| `feedAfter` | the ends of `JSONObject` and `JSONArray` (json/decoder.py) |
| `feedString`, `decodePoints` | `scanstring`, strict |
| `number` | `_match_number` |
| `loads` | `json.loads`, `JSONDecoder.decode` |

A lone surrogate, which is no code point of ours, becomes U+FFFD.

* `loads_append` — behind a complete object only whitespace may follow.
-/

namespace Py.Json

open Strings

inductive LoadsError
  /-- `JSONDecodeError` -/
  | decode
  /-- The `ValueError` of `int` on too many digits. -/
  | value
  /-- `RecursionError` -/
  | recursion
deriving DecidableEq, Repr

/-- A list or an object that is being read. -/
inductive Frame (F : Type)
  | list (items : List (Value F))
  | dict (items : List (Str × Value F))
  /-- The key is read, its value is not. -/
  | item (items : List (Str × Value F)) (key : Str)

/-- What comes next. -/
inductive Mode (F : Type)
  | value
  | valueOrEnd
  | key
  | keyOrEnd
  | colon
  | after
  | done (value : Value F)
  | string (points : List Nat)
  | escape (points : List Nat)
  | unicode (points : List Nat) (digits : Str)
  | number (text : Str)
  | word (rest : Str) (value : Value F)

structure State (F : Type) where
  stack : List (Frame F)
  mode : Mode F

variable {F : Type}

/-- `WHITESPACE` -/
def isWhitespace (c : Char) : Bool := c == ' ' || c == '\t' || c == '\n' || c == '\r'

/-- A value is complete. -/
def deliver (value : Value F) : List (Frame F) → State F
  | [] => ⟨[], .done value⟩
  | .list items :: stack => ⟨.list (items ++ [value]) :: stack, .after⟩
  | .item items key :: stack => ⟨.dict (Dict.put items key value) :: stack, .after⟩
  -- a key stands here, never a value
  | .dict items :: stack => ⟨.dict items :: stack, .after⟩

/-- Behind a complete value. -/
def feedAfter (s : State F) (c : Char) : Except LoadsError (State F) :=
  if isWhitespace c then .ok s
  else match s.stack with
    | .list items :: stack =>
      if c = ',' then .ok ⟨s.stack, .value⟩
      else if c = ']' then .ok (deliver (.list items) stack)
      else .error .decode
    | .dict items :: stack =>
      if c = ',' then .ok ⟨s.stack, .key⟩
      else if c = '}' then .ok (deliver (.dict items) stack)
      else .error .decode
    | _ => .error .decode

/-! ## Strings -/

def isHigh (n : Nat) : Bool := 0xD800 ≤ n && n ≤ 0xDBFF

def isLow (n : Nat) : Bool := 0xDC00 ≤ n && n ≤ 0xDFFF

/-- The text of what was read, surrogate pairs joined. -/
def decodePoints : List Nat → Str
  | high :: low :: rest =>
    if isHigh high && isLow low then
      Char.ofNat (0x10000 + (high - 0xD800) * 0x400 + (low - 0xDC00)) :: decodePoints rest
    else (if isHigh high || isLow high then Char.ofNat 0xFFFD else Char.ofNat high) :: decodePoints (low :: rest)
  | [n] => [if isHigh n || isLow n then Char.ofNat 0xFFFD else Char.ofNat n]
  | [] => []

def hexDigit (c : Char) : Option Nat :=
  if c.isDigit then some (c.toNat - 48)
  else if 97 ≤ c.toNat ∧ c.toNat ≤ 102 then some (c.toNat - 87)
  else if 65 ≤ c.toNat ∧ c.toNat ≤ 70 then some (c.toNat - 55)
  else none

def hexValue (digits : Str) : Nat := digits.foldl (fun n c => 16 * n + (hexDigit c).getD 0) 0

/-- `BACKSLASH` -/
def unescape (c : Char) : Option Nat :=
  match c with
  | '"' => some 34
  | '\\' => some 92
  | '/' => some 47
  | 'b' => some 8
  | 'f' => some 12
  | 'n' => some 10
  | 'r' => some 13
  | 't' => some 9
  | _ => none

/-- A string is complete: inside an object without a pending key it is the next one. -/
def closeString (text : Str) : List (Frame F) → State F
  | .dict items :: stack => ⟨.item items text :: stack, .colon⟩
  | stack => deliver (.str text) stack

def feedString (stack : List (Frame F)) (points : List Nat) (c : Char) : Except LoadsError (State F) :=
  if c = '"' then .ok (closeString (decodePoints points) stack)
  else if c = '\\' then .ok ⟨stack, .escape points⟩
  else if c.toNat < 32 then .error .decode
  else .ok ⟨stack, .string (points ++ [c.toNat])⟩

def feedEscape (stack : List (Frame F)) (points : List Nat) (c : Char) : Except LoadsError (State F) :=
  if c = 'u' then .ok ⟨stack, .unicode points []⟩
  else match unescape c with
    | some n => .ok ⟨stack, .string (points ++ [n])⟩
    | none => .error .decode

def feedUnicode (stack : List (Frame F)) (points : List Nat) (digits : Str) (c : Char) : Except LoadsError (State F) :=
  if (hexDigit c).isNone then .error .decode
  else if digits.length < 3 then .ok ⟨stack, .unicode points (digits ++ [c])⟩
  else .ok ⟨stack, .string (points ++ [hexValue (digits ++ [c])])⟩

/-! ## Numbers -/

def isNumberChar (c : Char) : Bool := c.isDigit || c == '-' || c == '+' || c == '.' || c == 'e' || c == 'E'

/-- `0|[1-9]\d*`, and what is left. -/
def unsigned : Str → Option (Str × Str)
  | '0' :: rest => some (['0'], rest)
  | c :: rest => if c.isDigit then some (c :: rest.takeWhile Char.isDigit, rest.dropWhile Char.isDigit) else none
  | [] => none

def integer : Str → Option (Str × Str)
  | '-' :: rest => (unsigned rest).map fun (digits, rest) => ('-' :: digits, rest)
  | text => unsigned text

/-- `(\.\d+)?` -/
def fraction : Str → Str × Str
  | '.' :: rest =>
    if rest.takeWhile Char.isDigit = [] then ([], '.' :: rest)
    else ('.' :: rest.takeWhile Char.isDigit, rest.dropWhile Char.isDigit)
  | rest => ([], rest)

def exponentSign : Str → Str × Str
  | '+' :: rest => (['+'], rest)
  | '-' :: rest => (['-'], rest)
  | rest => ([], rest)

/-- `([eE][-+]?\d+)?` -/
def exponent : Str → Str × Str
  | e :: rest =>
    let (sign, digits) := exponentSign rest
    if (e = 'e' ∨ e = 'E') ∧ digits.takeWhile Char.isDigit ≠ [] then
      (e :: (sign ++ digits.takeWhile Char.isDigit), digits.dropWhile Char.isDigit)
    else ([], e :: rest)
  | [] => ([], [])

variable [Python F]

/-- The number a text starts with is read before the rest is refused. -/
def number (text : Str) : Except LoadsError (Value F) :=
  match integer text with
  | none => .error .decode
  | some (digits, rest) =>
    let (frac, rest) := fraction rest
    let (exp, rest) := exponent rest
    let value :=
      if frac = [] ∧ exp = [] then (Python.intOfStr F digits).map Value.int
      else (Python.floatOfStr (digits ++ frac ++ exp)).map Value.float
    match value with
    | some value => if rest = [] then .ok value else .error .decode
    | none => .error .value

/-! ## The machine -/

/-- `NaN`, `Infinity` -/
def constant (stack : List (Frame F)) (rest text : Str) : Except LoadsError (State F) :=
  match Python.floatOfStr text with
  | some x => .ok ⟨stack, .word rest (.float x)⟩
  | none => .error .value

def enter (limit : Nat) (stack : List (Frame F)) (s : State F) : Except LoadsError (State F) :=
  if stack.length < limit then .ok s else .error .recursion

/-- The first code point of a value; `limit` is how deep Python may recurse. -/
def begin (limit : Nat) (stack : List (Frame F)) (c : Char) : Except LoadsError (State F) :=
  match c with
  | '"' => .ok ⟨stack, .string []⟩
  | '{' => enter limit stack ⟨.dict [] :: stack, .keyOrEnd⟩
  | '[' => enter limit stack ⟨.list [] :: stack, .valueOrEnd⟩
  | 'n' => .ok ⟨stack, .word "ull" .none⟩
  | 't' => .ok ⟨stack, .word "rue" (.bool true)⟩
  | 'f' => .ok ⟨stack, .word "alse" (.bool false)⟩
  | 'N' => constant stack "aN" "NaN"
  | 'I' => constant stack "nfinity" "Infinity"
  | c => if c.isDigit || c == '-' then .ok ⟨stack, .number [c]⟩ else .error .decode

def feedNumber (stack : List (Frame F)) (text : Str) (c : Char) : Except LoadsError (State F) :=
  if isNumberChar c then .ok ⟨stack, .number (text ++ [c])⟩
  else if text = ['-'] ∧ c = 'I' then constant stack "nfinity" "-Infinity"
  else do feedAfter (deliver (← number text) stack) c

def feedWord (stack : List (Frame F)) (value : Value F) (c : Char) : Str → Except LoadsError (State F)
  | [] => feedAfter (deliver value stack) c
  | expected :: rest =>
    if c ≠ expected then .error .decode
    else if rest = [] then .ok (deliver value stack)
    else .ok ⟨stack, .word rest value⟩

/-- One code point. -/
def feed (limit : Nat) (s : State F) (c : Char) : Except LoadsError (State F) :=
  match s.mode with
  | .string points => feedString s.stack points c
  | .escape points => feedEscape s.stack points c
  | .unicode points digits => feedUnicode s.stack points digits c
  | .number text => feedNumber s.stack text c
  | .word rest value => feedWord s.stack value c rest
  | .value => if isWhitespace c then .ok s else begin limit s.stack c
  | .valueOrEnd => if isWhitespace c then .ok s else if c = ']' then feedAfter s c else begin limit s.stack c
  | .key => if isWhitespace c then .ok s else if c = '"' then .ok ⟨s.stack, .string []⟩ else .error .decode
  | .keyOrEnd =>
    if isWhitespace c then .ok s
    else if c = '"' then .ok ⟨s.stack, .string []⟩
    else if c = '}' then feedAfter s c
    else .error .decode
  | .colon => if isWhitespace c then .ok s else if c = ':' then .ok ⟨s.stack, .value⟩ else .error .decode
  | .after | .done _ => feedAfter s c

def run (limit : Nat) (s : State F) (text : Str) : Except LoadsError (State F) := text.foldlM (feed limit) s

def result (s : State F) : Except LoadsError (Value F) :=
  match s.mode with
  | .done value => .ok value
  | _ => .error .decode

/-- The end of the text, which also ends a number. -/
def finish (s : State F) : Except LoadsError (Value F) :=
  match s.mode with
  | .number text => do result (deliver (← number text) s.stack)
  | _ => result s

def start : State F := ⟨[], .value⟩

/-- `json.loads` -/
def loads (limit : Nat) (text : Str) : Except LoadsError (Value F) := do finish (← run limit start text)

/-! ## Complete objects -/

/-- A state a closing brace leads to: no number is open, and a complete value is the whole one. -/
structure Settled (s : State F) : Prop where
  noNumber : ∀ text, s.mode ≠ .number text
  whole : ∀ value, s.mode = .done value → s.stack = []

omit [Python F] in
theorem Settled.opened {stack : List (Frame F)} {mode : Mode F} (hnumber : ∀ text, mode ≠ .number text)
    (hdone : ∀ value, mode ≠ .done value) : Settled ⟨stack, mode⟩ := ⟨hnumber, fun value h => absurd h (hdone value)⟩

omit [Python F] in
theorem deliver_settled (value : Value F) (stack : List (Frame F)) : Settled (deliver value stack) := by
  cases stack with
  | nil => exact ⟨fun _ => by simp [deliver], fun _ _ => rfl⟩
  | cons frame stack => cases frame <;> exact ⟨fun _ => by simp [deliver], fun _ h => by simp [deliver] at h⟩

omit [Python F] in
theorem feedAfter_settled {s s' : State F} {c : Char} (hc : isWhitespace c = false)
    (h : feedAfter s c = .ok s') : Settled s' := by
  rw [feedAfter, hc, if_neg Bool.false_ne_true] at h
  split at h
  · split_ifs at h <;> cases h
    · exact .opened (fun _ => by simp) fun _ => by simp
    · exact deliver_settled _ _
  · split_ifs at h <;> cases h
    · exact .opened (fun _ => by simp) fun _ => by simp
    · exact deliver_settled _ _
  · cases h

theorem feed_settled {limit : Nat} {s s' : State F} (h : feed limit s '}' = .ok s') : Settled s' := by
  have hspace : isWhitespace '}' = false := by decide
  unfold feed at h
  split at h
  next =>
    cases h
    exact .opened (fun _ => by simp) fun _ => by simp
  next => cases h
  next => cases h
  next text _ =>
    rw [feedNumber, if_neg (by decide), if_neg (fun hi => absurd hi.2 (by decide))] at h
    obtain ⟨value, -, h⟩ := Except.bind_eq_ok.1 h
    exact feedAfter_settled hspace h
  next rest value _ =>
    cases rest with
    | nil => exact feedAfter_settled hspace h
    | cons expected rest =>
      rw [feedWord] at h
      split_ifs at h with hne hlast
      · cases h
        exact deliver_settled _ _
      · cases h
        exact .opened (fun _ => by simp) fun _ => by simp
  next => cases h
  next => cases h
  next => cases h
  next => exact feedAfter_settled hspace h
  next => cases h
  next => exact feedAfter_settled hspace h
  next => exact feedAfter_settled hspace h

theorem Settled.finish {s : State F} (hs : Settled s) {value : Value F} (h : finish s = .ok value) :
    s = ⟨[], .done value⟩ := by
  obtain ⟨stack, mode⟩ := s
  cases mode with
  | done =>
    cases h
    rw [show stack = [] from hs.whole value rfl]
  | number text => exact absurd rfl (hs.noNumber text)
  | _ => cases h

theorem run_append (limit : Nat) (s : State F) (a b : Str) :
    run limit s (a ++ b) = (run limit s a >>= fun s' => run limit s' b) := List.foldlM_append

/-- Behind the whole value only whitespace may follow. -/
theorem run_done (limit : Nat) (value : Value F) : ∀ {text : Str}, (∃ c ∈ text, isWhitespace c = false) →
    run limit ⟨[], .done value⟩ text = .error .decode
  | [], ⟨_, h, _⟩ => by cases h
  | a :: text, ⟨c, hmem, hc⟩ => by
    rw [run, List.foldlM_cons, feed, feedAfter]
    cases ha : isWhitespace a with
    | true =>
      have hne : c ≠ a := by
        rintro rfl
        rw [hc] at ha
        cases ha
      exact run_done limit value ⟨c, (List.mem_cons.1 hmem).resolve_left hne, hc⟩
    | false => rfl

/-- A text that ends in a brace ends with its value. -/
theorem run_of_loads {limit : Nat} {text : Str} {value : Value F} (hlast : text.getLast? = some '}')
    (h : loads limit text = .ok value) : run limit start text = .ok ⟨[], .done value⟩ := by
  obtain ⟨s, hs, hfinish⟩ := Except.bind_eq_ok.1 h
  obtain ⟨init, rfl⟩ : ∃ init, text = init ++ ['}'] := by
    obtain ⟨init, h⟩ := List.getLast?_eq_some_iff.1 hlast
    exact ⟨init, h⟩
  have hsettled : Settled s := by
    rw [run_append] at hs
    obtain ⟨s₀, -, hlast⟩ := Except.bind_eq_ok.1 hs
    obtain ⟨s₁, hfeed, hnil⟩ := Except.bind_eq_ok.1 hlast
    cases hnil
    exact feed_settled hfeed
  rw [hs, hsettled.finish hfinish]

/-- **Behind a complete object only whitespace may follow.** -/
theorem loads_append {limit : Nat} {text rest : Str} {value : Value F} (hlast : text.getLast? = some '}')
    (h : loads limit text = .ok value) (hrest : ∃ c ∈ rest, isWhitespace c = false) :
    loads limit (text ++ rest) = (.error .decode : Except LoadsError (Value F)) := by
  rw [loads, run_append, run_of_loads hlast h]
  show (run limit ⟨[], .done value⟩ rest >>= finish) = _
  rw [run_done limit value hrest]
  rfl

end Py.Json
