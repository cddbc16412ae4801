import SlurmWeb.Lib.Strings
import SlurmWeb.Lib.Except

/-!
# Python values as `json.loads` returns them

The values of a decoded JSON document and the built-in operations programs apply to them, each
with the exceptions it raises. Floats are a type `F` with the operations of `Python F`; a `dict`
is the list of its items.
-/

namespace Py

open Strings

/-- Exception classes. -/
inductive Error
  | typeError
  | valueError
  | keyError
  | attributeError
  | overflowError
  | invalidOperation
  | other (name : Str)
deriving DecidableEq, Repr

inductive Value (F : Type)
  | none
  | bool (b : Bool)
  | int (n : Int)
  | float (x : F)
  | str (s : Str)
  | list (items : List (Value F))
  | dict (items : List (Str × Value F))

/-- The built-ins whose results depend on the number format or on `repr`. -/
class Python (F : Type) where
  /-- `float(n)`: an `OverflowError` from about 1.8e308 on. -/
  floatOfInt : Int → Except Error F
  /-- `float(s)`; `none` is a `ValueError`. -/
  floatOfStr : Str → Option F
  /-- `int(s)`; `none` is a `ValueError`. -/
  intOfStr : Str → Option Int
  /-- `int(x)`: infinities and NaN raise. -/
  intOfFloat : F → Except Error Int
  /-- `bool(x)` -/
  floatTruthy : F → Bool
  /-- The literal `n.0`. -/
  literal : Nat → F
  add : F → F → F
  div : F → F → F
  lt : F → F → Bool
  le : F → F → Bool
  /-- The integer a float is equal to, which it then also hashes like. -/
  integral : F → Option Int
  /-- `float(Decimal(str(x)).quantize(Decimal("0.01"), rounding=ROUND_HALF_UP))` -/
  quantize : F → Except Error F
  /-- `str(v)` -/
  str : Value F → Str
  /-- `json.dumps(v)` -/
  dumps : Value F → Str

namespace Value

variable {F : Type} [Python F]

/-- `bool(v)` -/
def truthy : Value F → Bool
  | .none => false
  | .bool b => b
  | .int n => n != 0
  | .float x => Python.floatTruthy x
  | .str s => s != []
  | .list l => !l.isEmpty
  | .dict d => !d.isEmpty

/-- `a or b` -/
def or (a b : Value F) : Value F := if a.truthy then a else b

/-- `v is None` -/
def isNone : Value F → Bool
  | .none => true
  | _ => false

/-- `v in (None, "")` -/
def isBlank : Value F → Bool
  | .none => true
  | .str [] => true
  | _ => false

def isDict : Value F → Bool
  | .dict _ => true
  | _ => false

/-- The items of a `dict`, by key. -/
def lookup : List (Str × Value F) → Str → Option (Value F)
  | [], _ => Option.none
  | (k, v) :: items, key => if k = key then some v else lookup items key

/-- `d.get(key, default)` -/
def getOr (items : List (Str × Value F)) (key : Str) (default : Value F) : Value F := (lookup items key).getD default

/-- `d.get(key)` -/
def get (items : List (Str × Value F)) (key : Str) : Value F := getOr items key .none

/-- `v == "text"` -/
def isStr (text : Str) : Value F → Bool
  | .str s => s == text
  | _ => false

/-- `for x in v` -/
def iterate : Value F → Except Error (List (Value F))
  | .list items => .ok items
  | .dict items => .ok (items.map fun item => .str item.1)
  | .str s => .ok (s.map fun c => .str [c])
  | _ => .error .typeError

/-- What a value is as a key: numbers compare by value, a `list` or `dict` has no hash. -/
inductive Atom (F : Type)
  | none
  | int (n : Int)
  | float (x : F)
  | str (s : Str)
deriving DecidableEq

def hash : Value F → Except Error (Atom F)
  | .none => .ok .none
  | .bool b => .ok (.int (if b then 1 else 0))
  | .int n => .ok (.int n)
  | .float x => match Python.integral x with
    | some n => .ok (.int n)
    | Option.none => .ok (.float x)
  | .str s => .ok (.str s)
  | .list _ | .dict _ => .error .typeError

/-- `int(v)` -/
def toInt : Value F → Except Error Int
  | .int n => .ok n
  | .bool b => .ok (if b then 1 else 0)
  | .float x => Python.intOfFloat x
  | .str s => match Python.intOfStr F s with
    | some n => .ok n
    | Option.none => .error .valueError
  | _ => .error .typeError

/-- `float(v)` -/
def toFloat : Value F → Except Error F
  | .int n => Python.floatOfInt n
  | .bool b => Python.floatOfInt (if b then 1 else 0)
  | .float x => .ok x
  | .str s => match Python.floatOfStr s with
    | some x => .ok x
    | Option.none => .error .valueError
  | _ => .error .typeError

/-- `str(v)` -/
def toStr : Value F → Str
  | .str s => s
  | v => Python.str v

/-- `str(v or "").strip()` -/
def strippedText (v : Value F) : Str := strip (v.or (.str [])).toStr

/-- `sep.join(values)`: every element must be a string. -/
def join (sep : Str) (values : List (Value F)) : Except Error Str := do
  let parts ← values.mapM fun
    | .str s => Except.ok s
    | _ => .error .typeError
  return sep.intercalate parts

end Value

/-- `except (TypeError, ValueError): return default` -/
def orElse {α : Type} (x : Except Error α) (default : α) : Except Error α :=
  match x with
  | .error .typeError | .error .valueError => .ok default
  | x => x

/-! ## Exact numbers

Rationals in place of floats, to run programs on values without texts to parse and without infinities. -/

/-- Half away from zero, two decimals. -/
def quantizeRat (x : ℚ) : ℚ :=
  let cents : ℤ := ⌊|x| * 100 + 1 / 2⌋
  (if x < 0 then -cents else cents) / 100

def ratStr : Value ℚ → Str
  | .none => "None"
  | .bool b => if b then "True" else "False"
  | .int n => (toString n).toList
  | .str s => s
  | _ => []

instance : Python ℚ where
  floatOfInt n := .ok n
  floatOfStr _ := Option.none
  intOfStr _ := Option.none
  intOfFloat x := .ok (if x < 0 then ⌈x⌉ else ⌊x⌋)
  floatTruthy x := x != 0
  literal n := n
  add := (· + ·)
  div := (· / ·)
  lt x y := decide (x < y)
  le x y := decide (x ≤ y)
  integral x := if x.den = 1 then some x.num else Option.none
  quantize x := .ok (quantizeRat x)
  str := ratStr
  dumps := ratStr

end Py
