import SlurmWeb.Lib.PyValue

/-!
# `==` on decoded JSON

Two values are equal in Python when they read the same as texts in which a number is the integer it
is equal to, if there is one, and the items of a `dict` are in the order of their keys. `nan`, which
JSON does not have, is taken to be equal to itself here.

* `Value.same_symm`, `Value.same_trans` — an equivalence.
-/

namespace Py

open Strings

variable {F : Type} [Python F]

inductive Token (F : Type)
  | list
  | dict
  | close
  | key (text : Str)
  | atom (value : Value.Atom F)
deriving DecidableEq

namespace Value

/-- A number as the integer it is equal to. -/
def atomToken : Value F → List (Token F)
  | .bool b => [.atom (.int (if b then 1 else 0))]
  | .int n => [.atom (.int n)]
  | .float x => match Python.integral x with
    | some n => [.atom (.int n)]
    | Option.none => [.atom (.float x)]
  | .str s => [.atom (.str s)]
  | _ => [.atom .none]

/-- The tokens of the items, by key. -/
def itemTokens (items : List (Str × List (Token F))) : List (Token F) :=
  (items.insertionSort fun a b => Strings.le a.1 b.1).flatMap fun item => .key item.1 :: item.2

mutual

def tokens : Value F → List (Token F)
  | .list items => .list :: (listTokens items ++ [.close])
  | .dict items => .dict :: (itemTokens (dictTokens items) ++ [.close])
  | .none => [.atom .none]
  | .bool b => atomToken (.bool b)
  | .int n => atomToken (.int n)
  | .float x => atomToken (.float x)
  | .str s => atomToken (.str s)

def listTokens : List (Value F) → List (Token F)
  | [] => []
  | value :: values => tokens value ++ listTokens values

def dictTokens : List (Str × Value F) → List (Str × List (Token F))
  | [] => []
  | item :: items => pairTokens item :: dictTokens items

def pairTokens : Str × Value F → Str × List (Token F)
  | (key, value) => (key, tokens value)

end

variable [DecidableEq F]

/-- `v == w` -/
def same (v w : Value F) : Bool := decide (v.tokens = w.tokens)

theorem same_refl (v : Value F) : v.same v = true := decide_eq_true rfl

theorem same_symm {v w : Value F} (h : v.same w = true) : w.same v = true :=
  decide_eq_true (of_decide_eq_true h).symm

theorem same_trans {u v w : Value F} (h : u.same v = true) (h' : v.same w = true) : u.same w = true :=
  decide_eq_true ((of_decide_eq_true h).trans (of_decide_eq_true h'))

example : (dict [("a", int 1), ("b", bool true)] : Value ℚ).same (dict [("b", int 1), ("a", float 1)]) = true := by
  decide

end Value

end Py
