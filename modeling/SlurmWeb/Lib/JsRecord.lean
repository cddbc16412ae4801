import SlurmWeb.Lib.Dict
import SlurmWeb.Lib.JsonText

/-!
# Object literals and texts of JavaScript

An object literal answers for its own keys, and for the names of the members of `Object.prototype`, which are
functions and one object. Texts are sorted by their code units.

* `lookup_of_not_mem` — other names are those of own keys only.
* `codeUnits_inj` — different texts have different code units.
* `first_of_sort_iff` — what sorting says about the first text of a kind.
-/

namespace JsRecord

open Strings

/-- The exceptions of member accesses and loops. -/
inductive JsError
  | typeError
deriving DecidableEq

/-! ## Lookups -/

/-- The members of `Object.prototype`. -/
def prototypeNames : List Str :=
  ["constructor", "__defineGetter__", "__defineSetter__", "hasOwnProperty", "__lookupGetter__",
    "__lookupSetter__", "isPrototypeOf",
    "propertyIsEnumerable", "toString", "valueOf", "__proto__", "toLocaleString"]

/-- `record[key]` -/
inductive Found (α : Type)
  | own (value : α)
  | inherited
  | missing

variable {α : Type}

def lookup (record : Dict Str α) (key : Str) : Found α :=
  match record.get key with
  | some value => .own value
  | none => if key ∈ prototypeNames then .inherited else .missing

theorem lookup_of_not_mem {record : Dict Str α} {key : Str} (h : key ∉ prototypeNames) :
    lookup record key = (record.get key).elim .missing .own := by
  unfold lookup
  cases record.get key with
  | none => exact if_neg h
  | some value => rfl

theorem lookup_of_mem {record : Dict Str α} {key : Str} (h : key ∈ prototypeNames) (hown : record.get key = none) :
    lookup record key = .inherited := by
  unfold lookup
  rw [hown]
  exact if_pos h

/-- `String(value)` of the member with a name: a class, the prototype itself, or a function. -/
def printed (name : Str) : Str :=
  if name = "constructor".toList then "function Object() \x7b [native code] \x7d"
  else if name = "__proto__".toList then "[object Object]"
  else "function ".toList ++ name ++ "() \x7b [native code] \x7d".toList

/-- What is printed of a member is no name of a member, has no colon and no slash, and starts with a letter
or a bracket. -/
theorem printed_spec : ∀ name ∈ prototypeNames, ':' ∉ printed name ∧ '/' ∉ printed name ∧
    printed name ∉ prototypeNames ∧
    (printed name).head?.any (fun c => isSpace c || c == '*') = false ∧ printed name ≠ [] := by
  decide

theorem prototypeNames_spec : ∀ name ∈ prototypeNames, ':' ∉ name ∧ '/' ∉ name ∧
    name.head?.any (fun c => isSpace c || c == '*') = false ∧ name ≠ [] := by
  decide

/-! ## Texts -/

/-- The code units of a text. -/
def codeUnits (text : Str) : List Nat := text.flatMap Py.Json.units

theorem codeUnits_inj {a b : Str} (h : codeUnits a = codeUnits b) : a = b := by
  rw [← Py.Json.decodePoints_units a, ← Py.Json.decodePoints_units b]
  exact congrArg Py.Json.decodePoints h

/-- Not above, as `sort()` orders texts. -/
def unitsLe (a b : Str) : Bool := !decide (codeUnits b < codeUnits a)

theorem unitsLe_iff {a b : Str} : unitsLe a b = true ↔ codeUnits a ≤ codeUnits b := by simp [unitsLe]

instance : IsTrans Str (unitsLe · ·) :=
  ⟨fun _ _ _ hab hbc => unitsLe_iff.2 (le_trans (unitsLe_iff.1 hab) (unitsLe_iff.1 hbc))⟩

instance : Std.Total (α := Str) (unitsLe · ·) :=
  ⟨fun a b => (le_total (codeUnits a) (codeUnits b)).imp unitsLe_iff.2 unitsLe_iff.2⟩

/-- `texts.sort()` -/
def sort (texts : List Str) : List Str := texts.insertionSort (unitsLe · ·)

@[simp] theorem mem_sort {texts : List Str} {text : Str} : text ∈ sort texts ↔ text ∈ texts := by
  simp [sort]

theorem sort_pairwise (texts : List Str) : (sort texts).Pairwise fun a b => codeUnits a ≤ codeUnits b :=
  (List.pairwise_insertionSort (unitsLe · ·) texts).imp unitsLe_iff.1

/-- In sorted texts one of a kind comes before every one of another kind when it is below all of these. -/
theorem first_of_sort_iff {texts : List Str} {P Q : Str → Prop} (hPQ : ∀ a, P a → ¬ Q a) :
    (∃ pre a post, sort texts = pre ++ a :: post ∧ P a ∧ ∀ b ∈ pre, ¬ Q b) ↔
      ∃ a ∈ texts, P a ∧ ∀ b ∈ texts, Q b → codeUnits a < codeUnits b := by
  have hsorted := sort_pairwise texts
  constructor
  · rintro ⟨pre, a, post, h, ha, hpre⟩
    rw [h, List.pairwise_append, List.pairwise_cons] at hsorted
    refine ⟨a, mem_sort.1 (h ▸ List.mem_append_right _ List.mem_cons_self), ha, fun b hb hQ => ?_⟩
    rcases List.mem_append.1 (h ▸ mem_sort.2 hb) with hb | hb
    · exact absurd hQ (hpre b hb)
    rcases List.mem_cons.1 hb with rfl | hb
    · exact absurd hQ (hPQ b ha)
    · exact lt_of_le_of_ne (hsorted.2.1.1 b hb) fun heq => hPQ b (codeUnits_inj heq ▸ ha) hQ
  · rintro ⟨a, ha, hP, hlow⟩
    obtain ⟨pre, post, h⟩ := List.append_of_mem (mem_sort.2 ha)
    rw [h, List.pairwise_append] at hsorted
    refine ⟨pre, a, post, h, hP, fun b hb hQ => ?_⟩
    have hbt : b ∈ texts := mem_sort.1 (h ▸ List.mem_append_left _ hb)
    exact absurd (hlow b hbt hQ) (not_lt.2 (hsorted.2.2 b hb a List.mem_cons_self))

end JsRecord
