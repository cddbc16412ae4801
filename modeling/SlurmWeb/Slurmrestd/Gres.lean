import SlurmWeb.Lib.PyValue
import SlurmWeb.Lib.IsoTime
import SlurmWeb.Lib.Split

/-!
# Generic resources of nodes (slurmweb/slurmrestd/__init__.py :952)

slurmrestd lists resources as `name:type:count(S:0-1),…`. The backend cuts the text at every comma, those between
the parentheses included.

| here | there |
| --- | --- |
| `gpusOf`, `nodeGresExtractGpus` | `node_gres_extract_gpus` (:952) |
| `Entry`, `gresList` | the list, as slurmrestd writes it |

* `pieces_render` — what an entry is cut into at the commas: its own text up to the parenthesis, and digits.
* `nodeGresExtractGpus_eq` — the count is the sum over the entries named `gpu`.
-/

namespace SlurmWeb.Slurmrestd

open Strings Py

/-! ## The count of the backend -/

/-- What a piece adds to the count (:956-962). -/
def gpusOf (piece : Str) : Except Py.Error Int :=
  let gres := (beforeFirst '(' piece).splitOn ':'
  if gres.head? = some "gpu".toList then
    match IsoTime.pyInt (gres.getLast?.getD []) with
    | some count => .ok count
    | none => .error .valueError
  else .ok 0

/-- `node_gres_extract_gpus` (:952); an empty piece is skipped. -/
def nodeGresExtractGpus (gresFull : Str) : Except Py.Error Int :=
  (gresFull.splitOn ',').foldlM (fun result piece => do
    if piece = [] then return result else return result + (← gpusOf piece)) 0

/-! ## Lists of resources -/

/-- A name or a type. -/
def Word (s : Str) : Prop := s ≠ [] ∧ ∀ c ∈ s, c ∉ [':', ',', '=', '(', ')']

def Digits (s : Str) : Prop := s ≠ [] ∧ ∀ c ∈ s, IsoTime.isDigit c = true

inductive Tag
  | sockets
  | index

def Tag.text : Tag → Str
  | sockets => "S"
  | index => "IDX"

/-- What may stand behind the colon of a suffix. -/
def Body (s : Str) : Prop := s = "N/A".toList ∨ ∀ c ∈ s, IsoTime.isDigit c = true ∨ c = ',' ∨ c = '-'

instance : DecidablePred Word := fun s =>
  decidable_of_iff (s ≠ [] ∧ s.all (· ∉ [':', ',', '=', '(', ')']) = true)
    (and_congr_right fun _ => by simp [List.all_eq_true])

instance : DecidablePred Digits := fun s =>
  decidable_of_iff (s ≠ [] ∧ s.all IsoTime.isDigit = true) (and_congr_right fun _ => List.all_eq_true)

instance : DecidablePred Body := fun s =>
  decidable_of_iff (s = "N/A".toList ∨ s.all (fun c => IsoTime.isDigit c || c == ',' || c == '-') = true)
    (or_congr_right (by simp [List.all_eq_true, or_assoc]))

/-- `name[:type]:count[(tag:body)]` -/
structure Entry where
  name : Str
  type : Option Str
  count : Str
  suffix : Option (Tag × Str)
  name_word : Word name
  type_word : ∀ t ∈ type, Word t
  count_digits : Digits count
  suffix_body : ∀ s ∈ suffix, Body s.2

/-- What stands before the count. -/
inductive Sign
  | colon
  | equals

def Sign.text : Sign → Char
  | colon => ':'
  | equals => '='

namespace Entry

variable (entry : Entry)

def units : Nat := IsoTime.value entry.count

/-- The name and the type. -/
def label : Str := match entry.type with
  | some type => entry.name ++ ':' :: type
  | none => entry.name

def suffixText : Str := match entry.suffix with
  | some (tag, body) => '(' :: tag.text ++ ':' :: body ++ [')']
  | none => []

/-- The text up to the suffix. -/
def core (sign : Sign) : Str := entry.label ++ sign.text :: entry.count

def render (sign : Sign) : Str := entry.core sign ++ entry.suffixText

end Entry

/-- Entries, each with the sign before its count, joined by commas. -/
def gresList (entries : List (Sign × Entry)) : Str := [','].intercalate (entries.map fun e => e.2.render e.1)

/-! ## Characters -/

theorem Word.free {s : Str} (h : Word s) {c : Char} (hc : c ∈ [':', ',', '=', '(', ')']) :
    c ∉ s := fun hmem => h.2 c hmem hc

theorem Digits.free {s : Str} (h : Digits s) {c : Char} (hc : IsoTime.isDigit c = false) : c ∉ s := fun hmem => by
  rw [h.2 c hmem] at hc
  cases hc

namespace Entry

variable {entry : Entry}

theorem label_free {c : Char} (hc : c ∈ [',', '=', '(', ')']) : c ∉ entry.label := by
  have hword : c ∈ [':', ',', '=', '(', ')'] := List.mem_cons_of_mem _ hc
  have hcolon : c ≠ ':' := by
    rintro rfl
    revert hc
    decide
  have hname := entry.name_word.free hword
  rw [label]
  cases htype : entry.type with
  | none => exact hname
  | some type => simp [hname, hcolon, (entry.type_word type htype).free hword]

theorem core_free {c : Char} (hc : c ∈ [',', '(', ')']) (sign : Sign) : c ∉ entry.core sign := by
  have hlabel : c ∉ entry.label := label_free (by revert hc; simp; tauto)
  have hcount : c ∉ entry.count := entry.count_digits.free (by
    simp only [List.mem_cons, List.not_mem_nil, or_false] at hc
    rcases hc with rfl | rfl | rfl <;> decide)
  have hsign : c ≠ sign.text := by
    rintro rfl
    cases sign <;> revert hc <;> decide
  simp [core, hlabel, hcount, hsign]

/-- A suffix has no letter of `gpu`. -/
theorem suffixText_free : 'g' ∉ entry.suffixText := by
  rw [suffixText]
  split
  next tag body hsuffix =>
    have hbody : 'g' ∉ body := by
      rcases entry.suffix_body _ hsuffix with hna | hdigits
      · obtain rfl : body = "N/A".toList := hna
        decide
      · intro hmem
        exact absurd (hdigits 'g' hmem) (by decide)
    have htag : 'g' ∉ tag.text := by cases tag <;> decide
    simp [hbody, htag]
  next => decide

end Entry

/-! ## Pieces -/

namespace Entry

variable {entry : Entry}

/-- An entry cut at the commas: its own text, perhaps with the start of a suffix, and pieces without a
letter of `gpu`. -/
theorem pieces_render (sign : Sign) :
    ∃ first rest, (entry.render sign).splitOn ',' = (entry.core sign ++ first) :: rest ∧
    (∀ c ∈ first.head?, c = '(') ∧ ∀ piece ∈ rest, 'g' ∉ piece := by
  have hcore : ',' ∉ entry.core sign := core_free (by decide) sign
  obtain ⟨first, rest, hpieces⟩ := List.exists_cons_of_ne_nil (List.splitOn_ne_nil ',' entry.suffixText)
  refine ⟨first,
    rest, by rw [render, splitOn_append_left hcore, hpieces, List.modifyHead_cons], ?_, fun piece hpiece hg => ?_⟩
  · rw [suffixText] at hpieces
    split at hpieces
    next tag body _ =>
      rw [List.cons_append, List.cons_append, List.splitOn_cons_eq_if_modifyHead, if_neg (by decide)] at hpieces
      obtain ⟨p, ps, hrest⟩ := List.exists_cons_of_ne_nil (List.splitOn_ne_nil ',' (tag.text ++ ':' :: body ++ [')']))
      rw [hrest, List.modifyHead_cons] at hpieces
      cases hpieces
      simp
    next =>
      cases hpieces
      simp
  · exact suffixText_free (splitOn_subset (hpieces ▸ List.mem_cons_of_mem _ hpiece) 'g' hg)

theorem beforeParen (sign : Sign) {first : Str} (hfirst : ∀ c ∈ first.head?, c = '(') :
    beforeFirst '(' (entry.core sign ++ first) = entry.core sign :=
      beforeFirst_append (core_free (by decide) sign) hfirst

/-- The fields of an entry. -/
theorem fields_core : (entry.core .colon).splitOn ':' = entry.name :: (entry.type.toList ++ [entry.count]) := by
  have hname : ':' ∉ entry.name := entry.name_word.free (by decide)
  have hcount : (entry.count).splitOn ':' = [entry.count] :=
    List.splitOn_eq_singleton (entry.count_digits.free (by decide))
  rw [core, label]
  cases htype : entry.type with
  | none => rw [Sign.text, List.splitOn_append_cons_self_of_not_mem hname, hcount]; rfl
  | some type =>
    have htype : ':' ∉ type := (entry.type_word type htype).free (by decide)
    rw [Sign.text, List.append_assoc, List.cons_append, List.splitOn_append_cons_self_of_not_mem hname,
      List.splitOn_append_cons_self_of_not_mem htype, hcount]
    rfl

end Entry

theorem gresList_pieces {entries : List (Sign × Entry)} (h : entries ≠ []) :
    (gresList entries).splitOn ',' = entries.flatMap fun e => (e.2.render e.1).splitOn ',' := by
  rw [gresList, splitOn_intercalate_eq ',' (by simpa using h), List.flatMap_map]

/-- A piece of a list is an entry's own text, perhaps with the start of a suffix, or has no letter of `gpu`. -/
theorem pieces_cases {entries : List (Sign × Entry)} {piece : Str} (h : piece ∈ (gresList entries).splitOn ',') :
    (∃ e ∈ entries, ∃ first : Str, piece = e.2.core e.1 ++ first ∧ ∀ c ∈ first.head?, c = '(') ∨ 'g' ∉ piece := by
  rcases eq_or_ne entries [] with rfl | hne
  · obtain rfl : piece = [] := by simpa [gresList] using h
    exact .inr List.not_mem_nil
  · rw [gresList_pieces hne] at h
    obtain ⟨e, he, hpiece⟩ := List.mem_flatMap.1 h
    obtain ⟨first, rest, hpieces, hfirst, hfree⟩ := @Entry.pieces_render e.2 e.1
    rw [hpieces] at hpiece
    rcases List.mem_cons.1 hpiece with rfl | hpiece
    · exact .inl ⟨e, he, first, rfl, hfirst⟩
    · exact .inr (hfree piece hpiece)

/-- A figure read from the pieces, where those of a suffix count nothing, is the sum over the entries. -/
theorem sum_pieces {f : Str → Nat} {own : Sign × Entry → Nat} (hrest : ∀ piece, 'g' ∉ piece → f piece = 0)
    {entries : List (Sign × Entry)} (hown : ∀ e ∈ entries, ∀ first : Str, (∀ c ∈ first.head?, c = '(') →
      f (e.2.core e.1 ++ first) = own e) :
    (((gresList entries).splitOn ',').map f).sum = (entries.map own).sum := by
  rcases eq_or_ne entries [] with rfl | hne
  · have hempty : f [] = 0 := hrest [] List.not_mem_nil
    simp [gresList, hempty]
  · rw [gresList_pieces hne, List.map_flatMap, List.flatMap_def, List.sum_flatten, List.map_map]
    refine congrArg List.sum (List.map_congr_left fun e he => ?_)
    obtain ⟨first, rest, hpieces, hfirst, hfree⟩ := @Entry.pieces_render e.2 e.1
    have hzero : (rest.map f).sum = 0 := List.sum_eq_zero fun n hn => by
      obtain ⟨piece, hpiece, rfl⟩ := List.mem_map.1 hn
      exact hrest piece (hfree piece hpiece)
    rw [Function.comp_apply, hpieces, List.map_cons, List.sum_cons, hown e he first hfirst, hzero, Nat.add_zero]

/-! ## The count of the backend, read from the entries -/

theorem gpusOf_free {piece : Str} (h : 'g' ∉ piece) : gpusOf piece = .ok 0 := by
  have hhead : ((beforeFirst '(' piece).splitOn ':').head? ≠ some "gpu".toList := fun hhead => by
    obtain ⟨first, rest, hpieces⟩ := List.exists_cons_of_ne_nil (List.splitOn_ne_nil ':' (beforeFirst '(' piece))
    rw [hpieces] at hhead
    cases hhead
    exact h (beforeFirst_subset 'g' (splitOn_subset (hpieces ▸ List.mem_cons_self) 'g' (by decide)))
  rw [gpusOf]
  exact if_neg hhead

/-- The count `node_gres_extract_gpus` converts is not too long for `int`. -/
def Entry.Short (entry : Entry) : Prop := entry.name = "gpu".toList → entry.count.length ≤ IsoTime.maxStrDigits

theorem gpusOf_core {entry : Entry} (hshort : entry.Short) {first : Str} (hfirst : ∀ c ∈ first.head?, c = '(') :
    gpusOf (entry.core .colon ++ first) = .ok (if entry.name = "gpu".toList then (entry.units : Int) else 0) := by
  rw [gpusOf, Entry.beforeParen .colon hfirst, Entry.fields_core]
  rw [List.head?_cons, ← List.cons_append, List.getLast?_concat, Option.getD_some]
  by_cases hname : entry.name = "gpu".toList
  · rw [if_pos (congrArg some hname), if_pos hname,
      IsoTime.pyInt_digits entry.count_digits.1 entry.count_digits.2 (hshort hname)]
    rfl
  · rw [if_neg fun heq => hname (Option.some.inj heq), if_neg hname]

theorem foldlM_gpusOf {f : Str → Nat} {pieces : List Str} (hzero : f [] = 0)
    (h : ∀ piece ∈ pieces, gpusOf piece = .ok (f piece : Int)) (a : Int) : pieces.foldlM (fun result piece => do
      if piece = [] then return result else return result + (← gpusOf piece)) a =
        .ok (a + (pieces.map f).sum : Int) := by
  induction pieces generalizing a with
  | nil => simp
  | cons piece pieces ih =>
    obtain ⟨hpiece, hpieces⟩ := List.forall_mem_cons.1 h
    rw [List.foldlM_cons, List.map_cons, List.sum_cons]
    by_cases hnil : piece = []
    · rw [if_pos hnil, hnil, hzero, Nat.zero_add, Except.pure_eq_ok, Except.ok_bind, ih hpieces]
    · rw [if_neg hnil, hpiece, Except.ok_bind, Except.pure_eq_ok, Except.ok_bind, ih hpieces]
      push_cast
      rw [Int.add_assoc]

/-- The units of the entries with one of the names, added up. -/
def unitsNamed (names : List Str) (entries : List Entry) : Nat :=
  (entries.map fun entry => if entry.name ∈ names then entry.units else 0).sum

theorem nodeGresExtractGpus_eq {entries : List Entry} (hshort : ∀ entry ∈ entries, entry.Short) :
    nodeGresExtractGpus (gresList (entries.map (Sign.colon, ·))) = .ok (unitsNamed ["gpu"] entries : Int) := by
  let f (piece : Str) : Nat := ((gpusOf piece).toOption.getD 0).toNat
  have hfree : ∀ piece, 'g' ∉ piece → f piece = 0 := fun piece h => by
    dsimp only [f]
    rw [gpusOf_free h]
    rfl
  have hcore : ∀ entry ∈ entries, ∀ first : Str, (∀ c ∈ first.head?, c = '(') →
      f (entry.core .colon ++ first) = if entry.name ∈ ["gpu".toList] then entry.units else 0 :=
        fun entry he first h => by
    dsimp only [f]
    rw [gpusOf_core (hshort entry he) h]
    by_cases hname : entry.name = "gpu".toList
    · rw [if_pos hname, if_pos (List.mem_singleton.2 hname)]
      rfl
    · rw [if_neg hname, if_neg fun hmem => hname (List.mem_singleton.1 hmem)]
      rfl
  have hpieces : ∀ piece ∈ (gresList (entries.map (Sign.colon, ·))).splitOn ',', gpusOf piece = .ok (f piece : Int) :=
    fun piece hpiece => by
      rcases pieces_cases hpiece with ⟨e, he, first, rfl, hfirst⟩ | hg
      · obtain ⟨entry, hentry, rfl⟩ := List.mem_map.1 he
        rw [hcore entry hentry first hfirst, gpusOf_core (hshort entry hentry) hfirst]
        by_cases hname : entry.name = "gpu".toList
        · rw [if_pos hname, if_pos (List.mem_singleton.2 hname)]
        · rw [if_neg hname, if_neg fun hmem => hname (List.mem_singleton.1 hmem)]
          rfl
      · rw [hfree piece hg, gpusOf_free hg]
        rfl
  have hsum := @sum_pieces f (fun e => if e.2.name ∈ ["gpu".toList] then e.2.units else 0) hfree
    (entries.map (Sign.colon, ·))
    fun e he first hfirst => by
      obtain ⟨entry, hentry, rfl⟩ := List.mem_map.1 he
      exact hcore entry hentry first hfirst
  rw [List.map_map] at hsum
  rw [nodeGresExtractGpus, foldlM_gpusOf (hfree [] List.not_mem_nil) hpieces, hsum, zero_add]
  rfl

end SlurmWeb.Slurmrestd
