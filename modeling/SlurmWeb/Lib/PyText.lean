import SlurmWeb.Lib.IsoTime
import SlurmWeb.Lib.JsonText

/-!
# Texts of Python values

What programs rely on of `str` and `json.dumps`, and exact numbers that have these texts.

* `PythonText` — `str` is never empty except of the empty text, JSON is what `Json.dumps` writes.
* `Decimal` — rationals whose integers are written and read as Python does.
-/

namespace Py

open Strings

class PythonText (F : Type) [Python F] : Prop where
  str_ne_nil : ∀ v : Value F, (∀ s, v ≠ .str s) → Python.str v ≠ []
  str_int : ∀ n : Int, Python.str (.int n : Value F) = (toString n).toList
  dumps_eq : ∀ v : Value F, Python.dumps v = Json.dumps (fun x => Python.str (.float x)) v

theorem toStr_int {F : Type} [Python F] [PythonText F] (n : Int) :
    (Value.int n : Value F).toStr = (toString n).toList :=
  PythonText.str_int n

theorem toStr_ne_nil {F : Type} [Python F] [PythonText F] {v : Value F} (h : v.isBlank = false) : v.toStr ≠ [] := by
  cases v with
  | str s =>
    rintro hempty
    obtain rfl : s = [] := hempty
    cases h
  | _ => exact PythonText.str_ne_nil _ fun s h => by cases h

/-! ## Exact numbers with texts -/

def Decimal : Type := ℚ

instance : DecidableEq Decimal := inferInstanceAs (DecidableEq ℚ)

/-- A fraction as `p/q`. -/
def Decimal.repr (x : ℚ) : Str := (toString x.num).toList ++ '/' :: (toString x.den).toList

def Decimal.str : Value Decimal → Str
  | .none => "None"
  | .bool b => if b then "True" else "False"
  | .int n => (toString n).toList
  | .float x => Decimal.repr x
  | .str s => s
  | value => Json.dumps Decimal.repr value

instance : Python Decimal where
  floatOfInt := @Python.floatOfInt ℚ _
  floatOfStr := @Python.floatOfStr ℚ _
  intOfStr := IsoTime.pyInt
  intOfFloat := @Python.intOfFloat ℚ _
  floatTruthy := @Python.floatTruthy ℚ _
  literal := @Python.literal ℚ _
  add := @Python.add ℚ _
  div := @Python.div ℚ _
  lt := @Python.lt ℚ _
  le := @Python.le ℚ _
  integral := @Python.integral ℚ _
  quantize := @Python.quantize ℚ _
  str := Decimal.str
  dumps := Json.dumps Decimal.repr

instance : PythonText Decimal where
  str_ne_nil v h := by
    cases v with
    | none => decide
    | bool b => cases b <;> decide
    | int n =>
      intro hnil
      have hread := Json.integer_text n
      rw [show (toString n).toList = [] from hnil] at hread
      cases hread
    | float x => exact List.append_ne_nil_of_right_ne_nil _ (List.cons_ne_nil _ _)
    | str s => exact absurd rfl (h s)
    | list items => exact List.cons_ne_nil _ _
    | dict items => exact List.cons_ne_nil _ _
  str_int _ := rfl
  dumps_eq _ := rfl

example : (Python.dumps (.dict [("return_code", .int 2), ("name", .str "a\"b")] : Value Decimal)) =
    "\x7b\"return_code\": 2, \"name\": \"a\\\"b\"\x7d".toList := by decide

end Py
