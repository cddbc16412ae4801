import SlurmWeb.Lib.JsRegExp
import SlurmWeb.Lib.JsNumber
import SlurmWeb.Lib.Runs

/-!
# Node sets (frontend/src/composables/Nodeset.ts)

Sorted names that count up in their last number are folded to a range, `cn[001-003]`. Reading a node set back takes
what stands before a range for the names' beginning, and what stands behind it for a name of its own.

| here | there |
| --- | --- |
| `ConsecutiveNodes` | the class of that name (:9) |
| `nodeParts` | the pattern and the numbers of a name (:76) |
| `foldNodeset`, `expandNodeset` | :69, :107 |

Numbers are below 2^53, where those of JavaScript are exact (`Js.parseInt_digits`, `Js.add_exact`).

* `foldNodeset_eq` — the node set as the runs of the sorted names, joined.
* `expand_fold_iff` — when expanding a folded list gives the sorted names.
* `suffix_not_read_back` — what stands behind the range of a folded list becomes a name.
-/

namespace SlurmWeb.Frontend

open Strings IsoTime Js

/-! ## Folding -/

/-- `/(?<prefix>\D*)(?<id>\d*)/` -/
def foldRe : Pattern (Str × Str) := fun text =>
  let rest := text.dropWhile (!isDigit ·)
  some ((text.takeWhile (!isDigit ·), rest.takeWhile isDigit), rest.dropWhile isDigit)

def placeholder : Str := "%s"

/-- The body of the loop over the matches (:78). -/
def addMatch (parts : Str × List Str) (m : Str × Str) : Str × List Str :=
  let pattern := if m.1.length ≠ 0 then parts.1 ++ m.1 else parts.1
  if m.2.length ≠ 0 then (pattern ++ placeholder, parts.2 ++ [m.2]) else (pattern, parts.2)

/-- `node_pattern` and `node_ids` (:76) -/
def nodeParts (nodeName : Str) : Str × List Str := (matchAll foldRe nodeName).foldl addMatch ([], [])

/-- `result.replace('%s', text)` for a text without `$`. -/
def replaceFirst : Str → Str → Str
  | '%' :: 's' :: rest, text => text ++ rest
  | c :: rest, text => c :: replaceFirst rest text
  | [], _ => []

/-- `n.toString().padStart(width, '0')` -/
def padded (width : Nat) (n : Int) : Str := (toString n).toList.leftpad width '0'

structure ConsecutiveNodes where
  pattern : Str
  ids : List Str
  firstNodeId : Int
  lastNodeId : Int

namespace ConsecutiveNodes

/-- `constructor` (:15) -/
def new (pattern : Str) (ids : List Str) : ConsecutiveNodes :=
  match ids.getLast? with
  | some id => ⟨pattern, ids, value id, value id⟩
  | none => ⟨pattern, ids, -1, -1⟩

variable (nodes : ConsecutiveNodes)

/-- `isNext` (:25) -/
def isNext (pattern : Str) (ids : List Str) : Bool :=
  if pattern ≠ nodes.pattern then false
  else if ids.length ≠ nodes.ids.length then false
  else (ids.zip nodes.ids).zipIdx.all fun entry =>
    if entry.2 < ids.length - 1 then entry.1.1 == entry.1.2
    else entry.1.1.length == entry.1.2.length && decide ((value entry.1.1 : Int) = nodes.lastNodeId + 1)

/-- `addOne` (:46) -/
def addOne : ConsecutiveNodes := { nodes with lastNodeId := nodes.lastNodeId + 1 }

/-- `render` (:49) -/
def render : Str :=
  if nodes.firstNodeId = -1 then nodes.pattern
  else
    let result := nodes.ids.dropLast.foldl replaceFirst nodes.pattern
    let last := nodes.ids.getLast?.getD []
    if nodes.firstNodeId = nodes.lastNodeId then replaceFirst result last
    else replaceFirst result
      ('[' :: padded last.length nodes.firstNodeId ++ '-' :: padded last.length nodes.lastNodeId ++ [']'])

end ConsecutiveNodes

/-- The body of the loop over the names (:74); the current nodes are the last of all. -/
def foldName (all : List ConsecutiveNodes) (nodeName : Str) : List ConsecutiveNodes :=
  let (pattern, ids) := nodeParts nodeName
  match all.getLast? with
  | some current =>
    if current.isNext pattern ids then all.dropLast ++ [current.addOne] else all ++ [.new pattern ids]
  | none => all ++ [.new pattern ids]

/-- `foldNodeset` (:69) -/
def foldNodeset (nodeNames : List Str) : Str :=
  [','].intercalate (((sorted nodeNames).foldl foldName []).map ConsecutiveNodes.render)

/-! ## Expanding -/

/-- `[A-Za-z0-9_-]` -/
def isWord (c : Char) : Bool :=
  ('A' ≤ c && c ≤ 'Z') || ('a' ≤ c && c ≤ 'z') || isDigit c || c == '_' || c == '-'

/-- The groups of a match. -/
structure NodeMatch where
  nodes : Str
  id : Option Str
  range : Option (Str × Str)

/-- A character of an expression. -/
def literal (c : Char) : Str → Option Str
  | d :: rest => if d = c then some rest else none
  | [] => none

/-- `\[([0-9]+)-([0-9]+)\]` -/
def rangeRe : Pattern (Str × Str) := fun text => do
  let text ← literal '[' text
  let more ← literal '-' (text.dropWhile isDigit)
  let rest ← literal ']' (more.dropWhile isDigit)
  if text.takeWhile isDigit = [] ∨ more.takeWhile isDigit = [] then none
  else some ((text.takeWhile isDigit, more.takeWhile isDigit), rest)

/-- `/([A-Za-z0-9_-]+)(?:([0-9]+)|\[([0-9]+)-([0-9]+)\])?/` -/
def expandRe : Pattern NodeMatch := fun text =>
  let rest := text.dropWhile isWord
  if text.takeWhile isWord = [] then none
  else if rest.takeWhile isDigit ≠ [] then
    some (⟨text.takeWhile isWord, some (rest.takeWhile isDigit), none⟩, rest.dropWhile isDigit)
  else match rangeRe rest with
    | some (range, rest) => some (⟨text.takeWhile isWord, none, some range⟩, rest)
    | none => some (⟨text.takeWhile isWord, none, none⟩, rest)

/-- The names of a match (:110). -/
def expandMatch (m : NodeMatch) : List Str :=
  match m.id, m.range with
  | some id, _ => [m.nodes ++ id]
  | none, some (first, last) =>
    (List.range' (value first) (value last + 1 - value first)).map fun index :
      Nat => m.nodes ++ padded first.length index
  | none, none => [m.nodes]

/-- `expandNodeset` (:107) -/
def expandNodeset (nodeset : Str) : List Str := (matchAll expandRe nodeset).flatMap expandMatch

/-! ## The parts of a name -/

/-- A stretch of other characters, and the number behind it. -/
def Piece (m : Str × Str) : Prop := (∀ c ∈ m.1, isDigit c = false) ∧ ∀ c ∈ m.2, isDigit c = true

theorem matchAll_foldRe_nil : matchAll foldRe [] = [([], [])] := matchAll_end rfl

theorem matchAll_foldRe {text : Str} (hne : text ≠ []) : ∃ m rest, matchAll foldRe text = m :: matchAll foldRe rest ∧
    text = m.1 ++ m.2 ++ rest ∧ rest.length < text.length ∧ Piece m := by
  have hcut : text.takeWhile (!isDigit ·) ++ (text.dropWhile (!isDigit ·)).takeWhile isDigit ++
      (text.dropWhile (!isDigit ·)).dropWhile isDigit = text := by
    rw [List.append_assoc, List.takeWhile_append_dropWhile, List.takeWhile_append_dropWhile]
  have hshort : ((text.dropWhile (!isDigit ·)).dropWhile isDigit).length < text.length := by
    obtain ⟨c, text, rfl⟩ := List.exists_cons_of_ne_nil hne
    cases hc : isDigit c with
    | true =>
      rw [List.dropWhile_cons_of_neg (by simp [hc]), List.dropWhile_cons_of_pos hc, List.length_cons]
      exact Nat.lt_succ_of_le (List.dropWhile_sublist _).length_le
    | false =>
      rw [List.dropWhile_cons_of_pos (by simp [hc]), List.length_cons]
      exact Nat.lt_succ_of_le ((List.dropWhile_sublist _).trans (List.dropWhile_sublist _)).length_le
  refine ⟨_, _, matchAll_cons rfl hshort, hcut.symm, hshort, fun c hc => ?_, fun c hc => List.mem_takeWhile_imp hc⟩
  simpa using List.mem_takeWhile_imp hc

/-- The matches cut a name into pieces. -/
theorem matchAll_pieces (n : Nat) : ∀ {text : Str}, text.length = n →
    (matchAll foldRe text).flatMap (fun m => m.1 ++ m.2) = text ∧ ∀ m ∈ matchAll foldRe text, Piece m := by
  induction n using Nat.strong_induction_on with
  | _ n ih =>
    intro text hlen
    rcases eq_or_ne text [] with rfl | hne
    · rw [matchAll_foldRe_nil]
      exact ⟨rfl, fun m hm => List.mem_singleton.1 hm ▸ ⟨by simp, by simp⟩⟩
    · obtain ⟨m, rest, hmatch, htext, hshort, hpiece⟩ := matchAll_foldRe hne
      obtain ⟨hrest, hpieces⟩ := ih _ (hlen ▸ hshort) rfl
      rw [hmatch, List.flatMap_cons, hrest]
      exact ⟨htext.symm, List.forall_mem_cons.2 ⟨hpiece, hpieces⟩⟩

def patternOf (m : Str × Str) : Str := m.1 ++ if m.2 ≠ [] then placeholder else []

def idsOf (m : Str × Str) : List Str := if m.2 ≠ [] then [m.2] else []

theorem foldl_addMatch (l : List (Str × Str)) (parts : Str × List Str) :
    l.foldl addMatch parts = (parts.1 ++ l.flatMap patternOf, parts.2 ++ l.flatMap idsOf) := by
  induction l generalizing parts with
  | nil => simp
  | cons m l ih =>
    have hadd : addMatch parts m = (parts.1 ++ patternOf m, parts.2 ++ idsOf m) := by
      rw [addMatch, patternOf, idsOf]
      cases hfront : m.1 <;> cases hid : m.2 <;> simp
    rw [List.foldl_cons, ih, hadd]
    simp

theorem nodeParts_eq (name : Str) :
    nodeParts name = ((matchAll foldRe name).flatMap patternOf, (matchAll foldRe name).flatMap idsOf) := by
  rw [nodeParts, foldl_addMatch]
  rfl

/-- The placeholders filled in one after the other. -/
def fill (pattern : Str) (ids : List Str) : Str := ids.foldl replaceFirst pattern

theorem replaceFirst_append {done : Str} (h : '%' ∉ done) (pattern text : Str) :
    replaceFirst (done ++ pattern) text = done ++ replaceFirst pattern text := by
  induction done with
  | nil => rfl
  | cons c done ih =>
    have hc : c ≠ '%' := fun hc => h (hc ▸ List.mem_cons_self)
    have hskip : ∀ rest, replaceFirst (c :: rest) text = c :: replaceFirst rest text := fun rest => by
      rw [replaceFirst]
      rintro rest' rfl
      exact absurd rfl hc
    rw [List.cons_append, hskip, ih fun hmem => h (List.mem_cons_of_mem _ hmem)]
    rfl

theorem fill_append {done : Str} (h : '%' ∉ done) (pattern : Str) (ids : List Str) :
    fill (done ++ pattern) ids = done ++ fill pattern ids := by
  induction ids generalizing pattern with
  | nil => rfl
  | cons id ids ih => rw [fill, List.foldl_cons, replaceFirst_append h]; exact ih _

theorem replaceFirst_placeholder (rest text : Str) : replaceFirst (placeholder ++ rest) text = text ++ rest := rfl

/-- A name by its last number: what stands before and behind it, and the pattern and the numbers before it. -/
structure Numbered (name : Str) (parts : Str × List Str) (before last after stem : Str) (init : List Str) : Prop where
  text : name = before ++ last ++ after
  parts : parts = (stem ++ placeholder ++ after, init ++ [last])
  nonempty : last ≠ []
  digits : ∀ c ∈ last, isDigit c = true
  after_digits : ∀ c ∈ after, isDigit c = false
  after_plain : '%' ∉ after
  stem_nil : stem = [] ↔ before = []
  filled : ∀ rest, fill (stem ++ rest) init = before ++ rest

theorem Piece.plain {m : Str × Str} (h : Piece m) (hm : '%' ∉ m.1) : '%' ∉ m.1 ++ m.2 := by
  rw [List.mem_append]
  rintro (hmem | hmem)
  · exact hm hmem
  · cases h.2 _ hmem

/-- The pieces hold no number, or a last one. -/
theorem nameParts_cases {l : List (Str × Str)} (hpieces : ∀ m ∈ l, Piece m) (hplain : ∀ m ∈ l, '%' ∉ m.1) :
    (l.flatMap idsOf = [] ∧ l.flatMap patternOf = l.flatMap (fun m => m.1 ++ m.2) ∧
      ∀ c ∈ l.flatMap (fun m => m.1 ++ m.2), isDigit c = false) ∨
    ∃ before last after stem init, Numbered (l.flatMap fun m => m.1 ++ m.2) (l.flatMap patternOf, l.flatMap idsOf)
      before last after stem init := by
  induction l with
  | nil => exact .inl ⟨rfl, rfl, by simp⟩
  | cons m l ih =>
    obtain ⟨hpiece, hpieces⟩ := List.forall_mem_cons.1 hpieces
    obtain ⟨hm, hplain⟩ := List.forall_mem_cons.1 hplain
    simp only [List.flatMap_cons]
    rcases ih hpieces hplain with ⟨hids, hpattern, hnone⟩ | ⟨before, last, after, stem, init, h⟩
    · rw [hids, hpattern]
      rcases eq_or_ne m.2 [] with hid | hid
      · refine .inl ⟨by simp [idsOf, hid], by simp [patternOf, hid], fun c hc => ?_⟩
        rw [hid, List.append_nil, List.mem_append] at hc
        exact hc.elim (hpiece.1 c) (hnone c)
      · -- the last number is that of this piece
        have hafter : '%' ∉ l.flatMap (fun m => m.1 ++ m.2) := by
          intro hmem
          obtain ⟨other, hother, hmem⟩ := List.mem_flatMap.1 hmem
          exact (hpieces other hother).plain (hplain other hother) hmem
        refine .inr ⟨m.1, m.2, l.flatMap (fun m => m.1 ++ m.2), m.1, [], rfl, ?_, hid, hpiece.2, hnone, hafter,
          Iff.rfl, fun rest => rfl⟩
        simp [idsOf, patternOf, hid]
    · refine .inr ⟨m.1 ++ m.2 ++ before, last, after, patternOf m ++ stem, idsOf m ++ init, ?_, ?_,
        h.nonempty, h.digits, h.after_digits, h.after_plain, ?_, fun rest => ?_⟩
      · rw [h.text]
        simp
      · have hparts := Prod.mk.inj h.parts
        rw [hparts.1, hparts.2]
        simp
      · have hnil := h.stem_nil
        rw [patternOf]
        split
        · simp [placeholder, *]
        · simp_all
      · rcases eq_or_ne m.2 [] with hid | hid
        · have hpattern : patternOf m = m.1 := by simp [patternOf, hid]
          have hids : idsOf m = [] := by simp [idsOf, hid]
          rw [hpattern, hids, hid, List.append_assoc, List.nil_append, fill_append hm, h.filled]
          simp
        · have hpattern : patternOf m = m.1 ++ placeholder := by simp [patternOf, hid]
          have hids : idsOf m = [m.2] := by simp [idsOf, hid]
          have hcut : m.1 ++ placeholder ++ stem ++ rest = m.1 ++ (placeholder ++ (stem ++ rest)) := by simp
          rw [hpattern, hids, hcut, List.singleton_append, fill, List.foldl_cons, replaceFirst_append hm,
            replaceFirst_placeholder,
            ← List.append_assoc, ← fill, fill_append (hpiece.plain hm), h.filled, ← List.append_assoc]

theorem name_cases {name : Str} (h : '%' ∉ name) : (nodeParts name = (name, []) ∧ ∀ c ∈ name, isDigit c = false) ∨
    ∃ before last after stem init, Numbered name (nodeParts name) before last after stem init := by
  obtain ⟨htext, hpieces⟩ := matchAll_pieces name.length rfl
  have hplain : ∀ m ∈ matchAll foldRe name, '%' ∉ m.1 := fun m hm hmem => by
    rw [← htext] at h
    exact h (List.mem_flatMap.2 ⟨m, hm, List.mem_append_left _ hmem⟩)
  rw [nodeParts_eq]
  rcases nameParts_cases hpieces hplain with ⟨hids, hpattern, hnone⟩ | ⟨before, last, after, stem, init, hnumbered⟩
  · rw [hids, hpattern, htext]
    rw [htext] at hnone
    exact .inl ⟨rfl, hnone⟩
  · rw [htext] at hnumbered
    exact .inr ⟨before, last, after, stem, init, hnumbered⟩

/-! ## The next name -/

theorem zip_all_eq : ∀ {a b : List Str}, a.length = b.length → ((∀ p ∈ a.zip b, p.1 = p.2) ↔ a = b)
  | [], [], _ => by simp
  | [], _ :: _, h => by cases h
  | _ :: _, [], h => by cases h
  | x :: a, y :: b, h => by
    rw [List.zip_cons_cons, List.forall_mem_cons, zip_all_eq (Nat.succ.inj h), List.cons.injEq]

namespace ConsecutiveNodes

variable {nodes : ConsecutiveNodes}

theorem isNext_plain (h : nodes.ids = []) {pattern : Str} {ids : List Str} :
    nodes.isNext pattern ids = true ↔ pattern = nodes.pattern ∧ ids = [] := by
  rw [isNext, h, List.zip_nil_right]
  by_cases hpattern : pattern = nodes.pattern <;> by_cases hids : ids = [] <;> simp [hpattern, hids]

theorem isNext_numbered {init : List Str} {last : Str} (h : nodes.ids = init ++ [last])
    {pattern : Str} {ids : List Str} :
    nodes.isNext pattern ids = true ↔ pattern = nodes.pattern ∧ ∃ id, ids = init ++ [id] ∧ id.length = last.length ∧
      (value id : Int) = nodes.lastNodeId + 1 := by
  rw [isNext, h]
  by_cases hpattern : pattern = nodes.pattern
  · by_cases hlen : ids.length = (init ++ [last]).length
    · obtain ⟨front, id, rfl⟩ : ∃ front id, ids = front ++ [id] := by
        rcases List.eq_nil_or_concat ids with rfl | ⟨front, id, hids⟩
        · simp at hlen
        · exact ⟨front, id, by rw [hids, List.concat_eq_append]⟩
      have hfront : front.length = init.length := by simpa using hlen
      have hzip : (front ++ [id]).zip (init ++ [last]) = front.zip init ++ [(id, last)] := List.zip_append hfront
      rw [if_neg (not_not.2 hpattern), if_neg (not_not.2 hlen), hzip, List.zipIdx_append,
        List.all_append, Bool.and_eq_true]
      have hbefore : ((front.zip init).zipIdx.all fun entry =>
          if entry.2 < (front ++ [id]).length - 1 then entry.1.1 == entry.1.2
          else entry.1.1.length == entry.1.2.length && decide ((value entry.1.1 : Int) = nodes.lastNodeId + 1)) = true ↔
          front = init := by
        rw [List.all_eq_true, ← zip_all_eq hfront, List.forall_mem_zipIdx', List.forall_mem_iff_forall_getElem]
        refine forall_congr' fun i => forall_congr' fun hi => ?_
        have hlt : i < (front ++ [id]).length - 1 := by
          rw [List.length_zip, hfront, Nat.min_self] at hi
          simpa [hfront] using hi
        simp only [if_pos hlt, beq_iff_eq]
      have hat : (front.zip init).length = front.length := by simp [hfront]
      have hlast : ([(id, last)].zipIdx (0 + (front.zip init).length)).all (fun entry =>
          if entry.2 < (front ++ [id]).length - 1 then entry.1.1 == entry.1.2
          else entry.1.1.length == entry.1.2.length && decide ((value entry.1.1 : Int) = nodes.lastNodeId + 1)) = true ↔
          id.length = last.length ∧ (value id : Int) = nodes.lastNodeId + 1 := by
        simp [hat]
      rw [hbefore, hlast]
      constructor
      · rintro ⟨rfl, hlength, hvalue⟩
        exact ⟨hpattern, id, rfl, hlength, hvalue⟩
      · rintro ⟨-, other, hother, hlength, hvalue⟩
        obtain ⟨rfl, hid⟩ := List.append_inj' hother rfl
        cases hid
        exact ⟨rfl, hlength, hvalue⟩
    · rw [if_neg (not_not.2 hpattern), if_pos hlen]
      refine iff_of_false Bool.false_ne_true ?_
      rintro ⟨-, id, rfl, -⟩
      exact hlen (by simp)
  · rw [if_pos hpattern]
    simp [hpattern]

/-- The nodes end with the name `z`. -/
def Tracks (nodes : ConsecutiveNodes) (z : Str) : Prop :=
  nodes.pattern = (nodeParts z).1 ∧ (nodes.ids = [] ∧ (nodeParts z).2 = [] ∨
    ∃ init last id, nodes.ids = init ++ [last] ∧ (nodeParts z).2 = init ++ [id] ∧ id.length = last.length ∧
      nodes.lastNodeId = value id)

end ConsecutiveNodes

open ConsecutiveNodes

/-- The nodes of one name. -/
def ofName (name : Str) : ConsecutiveNodes := .new (nodeParts name).1 (nodeParts name).2

/-- `isNext`, of two names -/
def follows (a b : Str) : Bool := (ofName a).isNext (nodeParts b).1 (nodeParts b).2

theorem ofName_tracks (name : Str) : (ofName name).Tracks name := by
  rcases List.eq_nil_or_concat (nodeParts name).2 with hnil | ⟨init, last, hids⟩
  · rw [ofName, hnil]
    exact ⟨rfl, .inl ⟨rfl, hnil⟩⟩
  · rw [List.concat_eq_append] at hids
    rw [ofName, hids, new, List.getLast?_append]
    exact ⟨rfl, .inr ⟨init, last, last, rfl, hids, rfl, rfl⟩⟩

theorem isNext_congr {a b : ConsecutiveNodes} {z : Str} (ha : a.Tracks z) (hb : b.Tracks z)
    (pattern : Str) (ids : List Str) : a.isNext pattern ids = b.isNext pattern ids := by
  rw [Bool.eq_iff_iff]
  obtain ⟨hpattern, hids⟩ := ha
  obtain ⟨hpattern', hids'⟩ := hb
  rcases hids with ⟨hnil, hz⟩ | ⟨init, last, id, hids, hz, hlen, hvalue⟩
  · rcases hids' with ⟨hnil', -⟩ | ⟨_, _, _, -, hz', -⟩
    · rw [isNext_plain hnil, isNext_plain hnil', hpattern, hpattern']
    · rw [hz] at hz'
      simp at hz'
  · rcases hids' with ⟨-, hz'⟩ | ⟨init', last', id', hids', hz', hlen', hvalue'⟩
    · rw [hz] at hz'
      simp at hz'
    · rw [hz] at hz'
      obtain ⟨rfl, hid⟩ := List.append_inj' hz' rfl
      cases hid
      rw [isNext_numbered hids, isNext_numbered hids', hpattern, hpattern', hvalue, hvalue', ← hlen, ← hlen']

theorem addOne_tracks {nodes : ConsecutiveNodes} {a b : Str} (h : nodes.Tracks a) (hnext : follows a b = true) :
    nodes.addOne.Tracks b := by
  rw [follows, ← isNext_congr h (ofName_tracks a)] at hnext
  obtain ⟨hpattern, ⟨hnil, hids⟩ | ⟨init, last, id, hids, hid, hlen, hvalue⟩⟩ := h
  · obtain ⟨heq, hnone⟩ := (isNext_plain hnil).1 hnext
    exact ⟨heq.symm, .inl ⟨hnil, hnone⟩⟩
  · obtain ⟨heq, next, hnextIds, hnextLen, hnextValue⟩ := (isNext_numbered hids).1 hnext
    exact ⟨heq.symm, .inr ⟨init, last, next, hids, hnextIds, hnextLen, hnextValue.symm⟩⟩

/-! ## Runs of names -/

/-- The nodes of a run of names. -/
def ofRun (run : List Str) : ConsecutiveNodes :=
  { ofName (run.headD []) with lastNodeId := (ofName (run.headD [])).lastNodeId + (run.length - 1 : Nat) }

theorem ofRun_single (name : Str) : ofRun [name] = ofName name := by
  simp [ofRun]

theorem ofRun_snoc {run : List Str} (hne : run ≠ []) (name : Str) : ofRun (run ++ [name]) = (ofRun run).addOne := by
  obtain ⟨a, run, rfl⟩ := List.exists_cons_of_ne_nil hne
  simp [ofRun, addOne]
  omega

theorem foldl_foldName (names : List Str) : ∀ {done : List ConsecutiveNodes} {run : List Str} {z : Str}, run ≠ [] →
    (ofRun run).Tracks z → names.foldl foldName (done ++ [ofRun run]) = done ++
      (Runs.grow follows run z names).map ofRun := by
  induction names with
  | nil =>
    intro done run z _ _
    rfl
  | cons name names ih =>
    intro done run z hne htracks
    have hstep : foldName (done ++ [ofRun run]) name =
        if follows z name then done ++ [ofRun (run ++ [name])] else done ++ [ofRun run] ++ [ofRun [name]] := by
      rw [foldName, ofRun_snoc hne, ofRun_single, follows, ← isNext_congr htracks (ofName_tracks z)]
      simp [ofName]
    rw [List.foldl_cons, hstep, Runs.grow]
    cases hnext : follows z name with
    | true =>
      rw [if_pos rfl, if_pos rfl]
      refine ih (by simp) ?_
      rw [ofRun_snoc hne]
      exact addOne_tracks htracks hnext
    | false =>
      rw [if_neg Bool.false_ne_true, if_neg Bool.false_ne_true, List.map_cons]
      have hrest := @ih (done ++ [ofRun run]) [name] name (by simp) (ofRun_single name ▸ ofName_tracks name)
      rw [hrest, List.append_assoc]
      rfl

theorem foldNodeset_eq (names : List Str) :
    foldNodeset names = [','].intercalate (((sorted names).splitBy follows).map fun run => (ofRun run).render) := by
  have hloop : (sorted names).foldl foldName [] = ((sorted names).splitBy follows).map ofRun := by
    cases sorted names with
    | nil => rfl
    | cons a l =>
      have hfirst : foldName [] a = [] ++ [ofRun [a]] := by rw [ofRun_single]; rfl
      rw [List.foldl_cons, hfirst, Runs.splitBy_eq_grow]
      exact foldl_foldName l (by simp) (ofRun_single a ▸ ofName_tracks a)
  rw [foldNodeset, hloop, List.map_map]
  rfl

/-! ## What a run is folded to -/

theorem cut_at_last {x y s t : Str} (hs : '%' ∉ s) (ht : '%' ∉ t)
    (h : x ++ '%' :: s = y ++ '%' :: t) : x = y ∧ s = t := by
  have htail : ∀ {x s : Str}, '%' ∉ s → (x ++ '%' :: s).rtakeWhile (· ≠ '%') = s := fun {x s} hs => by
    rw [List.rtakeWhile, List.reverse_append, List.reverse_cons, List.append_assoc, List.takeWhile_append_of_pos]
    · simp
    · intro c hc
      exact decide_eq_true fun heq => hs (heq ▸ List.mem_reverse.1 hc)
  have hsame : s = t := by rw [← htail (x := x) hs, h, htail ht]
  subst hsame
  exact ⟨List.append_cancel_right h, rfl⟩

theorem padded_nat (width n : Nat) : padded width n = (Nat.toDigits 10 n).leftpad width '0' := by
  have htext : (toString (n : Int)).toList = n.repr.toList := rfl
  rw [padded, htext, Nat.toList_repr]

theorem padded_value {id : Str} (hne : id ≠ []) (hdigits : ∀ c ∈ id, isDigit c = true) :
    padded id.length (value id) = id := by
  rw [padded_nat, padStart_value hne hdigits]

section
variable {a b before last after stem : Str} {init : List Str}

theorem follows_plain (hb : '%' ∉ b) (h : nodeParts a = (a, [])) (hnext : follows a b = true) : b = a := by
  rw [follows, ofName, h] at hnext
  obtain ⟨hpattern, hids⟩ := (isNext_plain rfl).1 hnext
  rcases name_cases hb with ⟨hparts, -⟩ | ⟨_, _, _, _, _, hnumbered⟩
  · rw [hparts] at hpattern
    exact hpattern
  · rw [hnumbered.parts] at hids
    simp at hids

theorem follows_numbered (hb : '%' ∉ b) (h : Numbered a (nodeParts a) before last after stem init)
    (hnext : follows a b = true) :
    ∃ id, Numbered b (nodeParts b) before id after stem init ∧ id.length = last.length ∧ value id = value last + 1 := by
  have hlast : (ofName a).lastNodeId = value last := by
    rw [ofName, h.parts, new, List.getLast?_append]
    rfl
  have hids : (ofName a).ids = init ++ [last] := by
    rw [ofName, h.parts, new, List.getLast?_append]
    rfl
  have hpattern : (ofName a).pattern = stem ++ placeholder ++ after := by
    rw [ofName, h.parts, new, List.getLast?_append]
    rfl
  obtain ⟨heq, id, hid, hlen, hvalue⟩ := (isNext_numbered hids).1 hnext
  rw [hlast] at hvalue
  rw [hpattern] at heq
  rcases name_cases hb with ⟨hparts, -⟩ | ⟨before', last', after', stem', init', hnumbered⟩
  · rw [hparts] at hid
    simp at hid
  · have hparts := hnumbered.parts
    rw [Prod.ext_iff] at hparts
    rw [hparts.1] at heq
    rw [hparts.2] at hid
    obtain ⟨rfl, hsame⟩ := List.append_inj' hid rfl
    cases hsame
    have hplain : ∀ {t : Str}, '%' ∉ t → '%' ∉ 's' :: t := fun {t} ht hmem => by
      rcases List.mem_cons.1 hmem with hchar | hmem
      · cases hchar
      · exact ht hmem
    have hcut := cut_at_last (hplain hnumbered.after_plain) (hplain h.after_plain) (by simpa [placeholder] using heq)
    obtain rfl := hcut.1
    have hafter : after' = after := by simpa using hcut.2
    have hbefore : before' = before := by
      have hfill := (hnumbered.filled []).symm.trans (h.filled [])
      simpa using hfill
    subst hafter hbefore
    exact ⟨_, hnumbered, hlen, by exact_mod_cast hvalue⟩

theorem run_plain {run : List Str} (hplain : ∀ name ∈ run, '%' ∉ name) (h : nodeParts a = (a, []))
    (hchain : (a :: run).IsChain fun x y => follows x y = true) : ∀ name ∈ run, name = a := by
  induction run with
  | nil => simp
  | cons b run ih =>
    obtain ⟨hnext, hrest⟩ := List.isChain_cons_cons.1 hchain
    obtain ⟨hb, hplain⟩ := List.forall_mem_cons.1 hplain
    obtain rfl := follows_plain hb h hnext
    exact List.forall_mem_cons.2 ⟨rfl, ih hplain hrest⟩

/-- The names of a run count up. -/
theorem run_numbered {run : List Str} (hplain : ∀ name ∈ run, '%' ∉ name)
    (h : Numbered a (nodeParts a) before last after stem init) (hchain : (a :: run).IsChain fun x y =>
      follows x y = true) :
    a :: run = (List.range' (value last) (run.length + 1)).map fun n :
      Nat => before ++ padded last.length n ++ after := by
  induction run generalizing a last with
  | nil =>
    rw [h.text]
    simp [padded_value h.nonempty h.digits]
  | cons b run ih =>
    obtain ⟨hnext, hrest⟩ := List.isChain_cons_cons.1 hchain
    obtain ⟨hb, hplain⟩ := List.forall_mem_cons.1 hplain
    obtain ⟨id, hnumbered, hlen, hvalue⟩ := follows_numbered hb h hnext
    rw [List.length_cons, List.range'_succ, List.map_cons, padded_value h.nonempty h.digits, ← h.text,
      ih hplain hnumbered hrest, hlen, hvalue]

theorem render_plain {run : List Str} (h : nodeParts a = (a, [])) : (ofRun (a :: run)).render = a := by
  rw [render, ofRun]
  simp [ofName, h, new]

/-- The pattern filled in but for its last placeholder. -/
theorem filled_init (h : Numbered a (nodeParts a) before last after stem init) :
    init.foldl replaceFirst (stem ++ placeholder ++ after) = before ++ (placeholder ++ after) := by
  rw [List.append_assoc]
  exact h.filled _

theorem ofName_numbered (h : Numbered a (nodeParts a) before last after stem init) :
    ofName a = ⟨stem ++ placeholder ++ after, init ++ [last], value last, value last⟩ := by
  rw [ofName, h.parts, new, List.getLast?_append]
  rfl

theorem Numbered.plain_before (h : Numbered a (nodeParts a) before last after stem init)
    (ha : '%' ∉ a) : '%' ∉ before := by
  intro hmem
  rw [h.text] at ha
  exact ha (List.mem_append_left _ (List.mem_append_left _ hmem))

theorem render_single (ha : '%' ∉ a) (h : Numbered a (nodeParts a) before last after stem init) :
    (ofRun [a]).render = a := by
  rw [ofRun_single, ofName_numbered h, render]
  dsimp only
  rw [if_neg (by omega), if_pos rfl, List.dropLast_concat, filled_init h, List.getLast?_concat,
    replaceFirst_append (h.plain_before ha),
    Option.getD_some, replaceFirst_placeholder, ← List.append_assoc, ← h.text]

theorem render_run {b : Str} {run : List Str} (ha : '%' ∉ a)
    (h : Numbered a (nodeParts a) before last after stem init) :
    (ofRun (a :: b :: run)).render = before ++ ('[' :: padded last.length (value last) ++
      '-' :: padded last.length (value last + (run.length + 1) : Nat) ++ [']']) ++ after := by
  have hnodes : ofRun (a :: b :: run) =
      ⟨stem ++ placeholder ++ after, init ++ [last], value last, (value last + (run.length + 1) : Nat)⟩ := by
    rw [ofRun, List.headD_cons, ofName_numbered h]
    simp
  rw [hnodes, render]
  dsimp only
  rw [if_neg (by omega), if_neg (by omega), List.dropLast_concat, filled_init h, List.getLast?_concat,
    replaceFirst_append (h.plain_before ha), Option.getD_some, replaceFirst_placeholder, ← List.append_assoc]

end

example : foldNodeset ["cn-0-02", "cn-0-01", "cn-1-03"] = "cn-0-[01-02],cn-1-03".toList := by decide

/-! ## What a text expands to -/

section
variable {p : Char → Bool} {c : Char} (hc : p c = false) (s t : Str)
include hc

theorem takeWhile_append_cons : (s ++ c :: t).takeWhile p = s.takeWhile p := by
  induction s with
  | nil => simp [hc]
  | cons d s ih =>
    rw [List.cons_append, List.takeWhile_cons, List.takeWhile_cons, ih]

theorem dropWhile_append_cons : (s ++ c :: t).dropWhile p = s.dropWhile p ++ c :: t := by
  induction s with
  | nil => simp [hc]
  | cons d s ih =>
    rw [List.cons_append, List.dropWhile_cons, List.dropWhile_cons, ih]
    split <;> rfl

end

theorem literal_comma {c : Char} (hc : c ≠ ',') (s t : Str) :
    literal c (s ++ ',' :: t) = (literal c s).map (· ++ ',' :: t) := by
  cases s with
  | nil => exact if_neg hc.symm
  | cons d s =>
    rw [List.cons_append, literal, literal]
    split <;> rfl

/-- A comma behind a text does not change what is matched in it. -/
theorem rangeRe_comma (s t : Str) : rangeRe (s ++ ',' :: t) = (rangeRe s).map fun m => (m.1, m.2 ++ ',' :: t) := by
  have htake := fun s : Str => @takeWhile_append_cons isDigit ',' rfl s t
  have hdrop := fun s : Str => @dropWhile_append_cons isDigit ',' rfl s t
  unfold rangeRe
  rw [literal_comma (by decide)]
  cases hopen : literal '[' s with
  | none => rfl
  | some text =>
    simp only [Option.map_some, Option.bind_eq_bind, Option.bind_some]
    rw [htake, hdrop, literal_comma (by decide)]
    cases hdash : literal '-' (text.dropWhile isDigit) with
    | none => rfl
    | some more =>
      simp only [Option.map_some, Option.bind_some]
      rw [htake, hdrop, literal_comma (by decide)]
      cases hclose : literal ']' (more.dropWhile isDigit) with
      | none => rfl
      | some rest =>
        simp only [Option.map_some, Option.bind_some]
        split <;> rfl

theorem expandRe_comma (s t : Str) : expandRe (s ++ ',' :: t) = (expandRe s).map fun m => (m.1, m.2 ++ ',' :: t) := by
  unfold expandRe
  dsimp only
  rw [takeWhile_append_cons (by decide) s t, dropWhile_append_cons (by decide) s t,
    takeWhile_append_cons (by decide) (s.dropWhile isWord) t,
      dropWhile_append_cons (by decide) (s.dropWhile isWord) t, rangeRe_comma]
  split
  · rfl
  · split
    · rfl
    · cases rangeRe (s.dropWhile isWord) <;> rfl

theorem literal_shorter {c : Char} {s rest : Str} (h : literal c s = some rest) : rest.length < s.length := by
  cases s with
  | nil => cases h
  | cons d s =>
    rw [literal] at h
    split at h
    · cases h
      exact Nat.lt_succ_self _
    · cases h

theorem rangeRe_shorter {s rest : Str} {m : Str × Str} (h : rangeRe s = some (m, rest)) : rest.length < s.length := by
  unfold rangeRe at h
  obtain ⟨text, hopen, h⟩ := Option.bind_eq_some_iff.1 h
  obtain ⟨more, hdash, h⟩ := Option.bind_eq_some_iff.1 h
  obtain ⟨last, hclose, h⟩ := Option.bind_eq_some_iff.1 h
  have hrest : last = rest := by
    split at h
    · cases h
    · cases h
      rfl
  have htext := literal_shorter hopen
  have hmore := literal_shorter hdash
  have hlast := literal_shorter hclose
  have hdigits := (List.dropWhile_sublist isDigit (l := text)).length_le
  have hdigits' := (List.dropWhile_sublist isDigit (l := more)).length_le
  rw [← hrest]
  omega

/-- Every match takes characters. -/
theorem expandRe_shorter {s rest : Str} {m : NodeMatch} (h : expandRe s = some (m, rest)) : rest.length < s.length := by
  have hcut := List.takeWhile_append_dropWhile (p := isWord) (l := s)
  have hlen : (s.takeWhile isWord).length + (s.dropWhile isWord).length = s.length := by rw [← List.length_append, hcut]
  unfold expandRe at h
  dsimp only at h
  split at h
  · cases h
  · next hword =>
    have hpos := List.length_pos_iff.2 hword
    split at h
    · cases h
      have hdigits := (List.dropWhile_sublist isDigit (l := s.dropWhile isWord)).length_le
      omega
    · split at h
      · next hrange =>
        cases h
        have hshort := rangeRe_shorter hrange
        omega
      · cases h
        omega

/-- A text is expanded part by part. -/
theorem matchAll_comma (t : Str) (n : Nat) : ∀ {s : Str}, s.length = n →
    matchAll expandRe (s ++ ',' :: t) = matchAll expandRe s ++ matchAll expandRe t := by
  induction n using Nat.strong_induction_on with
  | _ n ih =>
    intro s hlen
    cases hmatch : expandRe s with
    | some found =>
      obtain ⟨m, rest⟩ := found
      have hshort := expandRe_shorter hmatch
      have hlong : expandRe (s ++ ',' :: t) = some (m, rest ++ ',' :: t) := by rw [expandRe_comma, hmatch]; rfl
      rw [matchAll_cons hmatch hshort, matchAll_cons hlong (expandRe_shorter hlong), ih _ (hlen ▸ hshort) rfl]
      rfl
    | none =>
      have hlong : expandRe (s ++ ',' :: t) = none := by rw [expandRe_comma, hmatch]; rfl
      cases s with
      | nil => rw [List.nil_append, matchAll_skip hlong, matchAll_nothing hmatch, List.nil_append]
      | cons c s =>
        have hskip : expandRe (c :: (s ++ ',' :: t)) = none := hlong
        rw [List.cons_append, matchAll_skip hskip, matchAll_skip hmatch, ih _ (hlen ▸ Nat.lt_succ_self _) rfl]

theorem expandNodeset_join (l : List Str) : expandNodeset ([','].intercalate l) = l.flatMap expandNodeset := by
  induction l with
  | nil => rfl
  | cons s l ih =>
    cases l with
    | nil => simp
    | cons t l =>
      have hjoin : [','].intercalate (s :: t :: l) = s ++ ',' :: [','].intercalate (t :: l) := by
        rw [List.intercalate_cons_cons]
        simp
      rw [hjoin, expandNodeset, matchAll_comma _ _ rfl, List.flatMap_append, List.flatMap_cons, ← ih]
      rfl

example : expandNodeset "cn[001-002],cn010" = ["cn001".toList, "cn002", "cn010"] := by decide

section
variable {word first last : Str}

theorem takeWhile_word (hword : ∀ c ∈ word, isWord c = true) {rest : Str} (hrest : ∀ c ∈ rest.head?, isWord c = false) :
    (word ++ rest).takeWhile isWord = word ∧ (word ++ rest).dropWhile isWord = rest := by
  rw [List.takeWhile_append_of_pos hword, List.dropWhile_append_of_pos hword]
  cases rest with
  | nil => simp
  | cons c rest => simp [hrest c rfl]

theorem literal_not_head {c : Char} {rest : Str} (h : ∀ d ∈ rest.head?, d ≠ c) : literal c rest = none := by
  cases rest with
  | nil => rfl
  | cons d rest => exact if_neg (h d rfl)

/-- A word that no range follows. -/
theorem expand_word (hne : word ≠ []) (hword : ∀ c ∈ word, isWord c = true) {rest : Str}
    (hrest : ∀ c ∈ rest.head?, isWord c = false ∧ c ≠ '[') :
      expandNodeset (word ++ rest) = word :: expandNodeset rest := by
  obtain ⟨htake, hdrop⟩ := takeWhile_word hword fun c hc => (hrest c hc).1
  have hdigits : rest.takeWhile isDigit = [] := by
    cases rest with
    | nil => rfl
    | cons c rest =>
      refine List.takeWhile_cons_of_neg fun hdigit => ?_
      have := (hrest c rfl).1
      simp [isWord, hdigit] at this
  have hmatch : expandRe (word ++ rest) = some (⟨word, none, none⟩, rest) := by
    unfold expandRe
    dsimp only
    rw [htake, hdrop, if_neg hne, hdigits, if_neg (not_not.2 rfl), rangeRe, literal_not_head fun d hd => (hrest d hd).2]
    rfl
  rw [expandNodeset, matchAll_cons hmatch (expandRe_shorter hmatch)]
  rfl

theorem expand_skip {c : Char} (hc : isWord c = false) (rest : Str) :
    expandNodeset (c :: rest) = expandNodeset rest := by
  have hnone : expandRe (c :: rest) = none := by
    unfold expandRe
    dsimp only
    rw [List.takeWhile_cons_of_neg (by simp [hc])]
    rfl
  rw [expandNodeset, matchAll_skip hnone]
  rfl

/-- The range of two numbers. -/
def rangeText (first last : Str) : Str := '[' :: first ++ '-' :: last ++ [']']

variable (hfirst : first ≠ [] ∧ ∀ c ∈ first, isDigit c = true) (hlast : last ≠ [] ∧ ∀ c ∈ last, isDigit c = true)
include hfirst hlast

theorem rangeRe_rangeText (rest : Str) : rangeRe (rangeText first last ++ rest) = some ((first, last), rest) := by
  have htake : ∀ {digits rest : Str} {c : Char}, (∀ d ∈ digits, isDigit d = true) → isDigit c = false →
      (digits ++ c :: rest).takeWhile isDigit = digits ∧ (digits ++ c :: rest).dropWhile isDigit = c :: rest :=
    fun {digits rest c} hdigits hc => by
      rw [List.takeWhile_append_of_pos hdigits, List.dropWhile_append_of_pos hdigits]
      simp [hc]
  have htext : rangeText first last ++ rest = '[' :: (first ++ '-' :: (last ++ ']' :: rest)) := by simp [rangeText]
  obtain ⟨hfirstTake, hfirstDrop⟩ := @htake first (last ++ ']' :: rest) '-' hfirst.2 rfl
  obtain ⟨hlastTake, hlastDrop⟩ := @htake last rest ']' hlast.2 rfl
  unfold rangeRe
  simp only [htext, literal, if_true, Option.bind_eq_bind, Option.bind_some, hfirstTake, hfirstDrop,
    hlastTake, hlastDrop]
  exact if_neg (not_or.2 ⟨hfirst.1, hlast.1⟩)

/-- A range behind a word. -/
theorem expand_range (hne : word ≠ []) (hword : ∀ c ∈ word, isWord c = true) (rest : Str) :
    expandNodeset (word ++ rangeText first last ++ rest) =
      ((List.range' (value first) (value last + 1 - value first)).map fun n : Nat => word ++ padded first.length n) ++
        expandNodeset rest := by
  have hhead : ∀ c ∈ (rangeText first last ++ rest).head?, isWord c = false := fun c hc => by
    cases hc
    decide
  obtain ⟨htake, hdrop⟩ := takeWhile_word hword hhead
  have hmatch : expandRe (word ++ (rangeText first last ++ rest)) = some (⟨word, none, some (first, last)⟩, rest) := by
    unfold expandRe
    dsimp only
    rw [htake, hdrop, if_neg hne, rangeRe_rangeText hfirst hlast]
    rfl
  rw [List.append_assoc, expandNodeset, matchAll_cons hmatch (expandRe_shorter hmatch), List.flatMap_cons]
  rfl

/-- A range behind nothing. -/
theorem expand_bare_range (rest : Str) :
    expandNodeset (rangeText first last ++ rest) = (first ++ '-' :: last) :: expandNodeset rest := by
  have htext : rangeText first last ++ rest = '[' :: ((first ++ '-' :: last) ++ ']' :: rest) := by simp [rangeText]
  have hword : ∀ c ∈ first ++ '-' :: last, isWord c = true := fun c hc => by
    have hdigit : ∀ c, isDigit c = true → isWord c = true := fun c hdigit => by simp [isWord, hdigit]
    rcases List.mem_append.1 hc with hc | hc
    · exact hdigit c (hfirst.2 c hc)
    · rcases List.mem_cons.1 hc with rfl | hc
      · rfl
      · exact hdigit c (hlast.2 c hc)
  have hrest : ∀ c ∈ (']' :: rest).head?, isWord c = false ∧ c ≠ '[' := fun c hc => by
    cases hc
    decide
  rw [htext, expand_skip rfl, expand_word (by simp) hword hrest, expand_skip rfl]

end

/-! ## When a run comes back -/

/-- A name over `A-Za-z0-9_-`, its numbers below 2^53. -/
structure NodeName (name : Str) : Prop where
  word : ∀ c ∈ name, isWord c = true
  small : ∀ id ∈ (nodeParts name).2, value id < 2 ^ 53

instance : DecidablePred NodeName := fun name =>
  decidable_of_iff (name.all isWord = true ∧ ∀ id ∈ (nodeParts name).2, value id < 2 ^ 53)
    ⟨fun h => ⟨List.all_eq_true.1 h.1, h.2⟩, fun h => ⟨List.all_eq_true.2 h.word, h.small⟩⟩

theorem NodeName.plain {name : Str} (h : NodeName name) : '%' ∉ name := by
  intro hmem
  cases h.word _ hmem

/-- The names of the pattern end in their last number and do not start with it. -/
def Ranged (pattern : Str) : Prop := placeholder <:+ pattern ∧ pattern ≠ placeholder

instance : DecidablePred Ranged := fun _ => inferInstanceAs (Decidable (_ ∧ _))

/-- Where `b` is folded into one range with `a`, that range can be read back. -/
def Folds (a b : Str) : Prop := follows a b = true → Ranged (nodeParts a).1

instance : DecidableRel Folds := fun _ _ => inferInstanceAs (Decidable (_ → _))

section
variable {a before last after stem : Str} {init : List Str}

theorem Numbered.ranged_iff (h : Numbered a (nodeParts a) before last after stem init) :
    Ranged (nodeParts a).1 ↔ before ≠ [] ∧ after = [] := by
  have hpattern : (nodeParts a).1 = stem ++ placeholder ++ after := congrArg Prod.fst h.parts
  rw [Ranged, hpattern, ne_eq, ne_eq, ← h.stem_nil]
  constructor
  · rintro ⟨⟨front, hsuffix⟩, hmore⟩
    have hs : '%' ∉ ['s'] := by decide
    have hafter : '%' ∉ 's' :: after := fun hmem => by
      rcases List.mem_cons.1 hmem with hchar | hmem
      · cases hchar
      · exact h.after_plain hmem
    have hcut :=
      cut_at_last hs hafter
      (by simpa [placeholder] using hsuffix : front ++ '%' :: ['s'] = stem ++ '%' :: ('s' :: after))
    have hnil : after = [] := by simpa using hcut.2.symm
    refine ⟨fun hstem => hmore ?_, hnil⟩
    rw [hstem, hnil]
    rfl
  · rintro ⟨hstem, rfl⟩
    rw [List.append_nil]
    exact ⟨List.suffix_append stem placeholder, fun heq => hstem (List.append_left_eq_self.1 heq)⟩

theorem not_ranged_plain (ha : '%' ∉ a) : ¬ Ranged a := by
  rintro ⟨hsuffix, -⟩
  exact ha (hsuffix.subset (by decide))

theorem follows_pattern {b : Str} (h : follows a b = true) : (nodeParts b).1 = (nodeParts a).1 := by
  have hpattern : (ofName a).pattern = (nodeParts a).1 := by
    rw [ofName, new]
    cases (nodeParts a).2.getLast? <;> rfl
  rw [follows, isNext] at h
  by_contra hne
  rw [if_pos (by rwa [hpattern])] at h
  cases h

/-- The names of a run have one pattern. -/
theorem folds_of_ranged {run : List Str} (hchain : (a :: run).IsChain fun x y => follows x y = true)
    (h : Ranged (nodeParts a).1) : (a :: run).IsChain Folds := by
  induction run generalizing a with
  | nil => exact List.isChain_singleton a
  | cons b run ih =>
    obtain ⟨hnext, hrest⟩ := List.isChain_cons_cons.1 hchain
    exact List.isChain_cons_cons.2 ⟨fun _ => h, ih hrest (follows_pattern hnext ▸ h)⟩

/-- What a run is expanded to. -/
def expandRun (run : List Str) : List Str := expandNodeset (ofRun run).render

theorem expand_name (hne : a ≠ []) (h : NodeName a) : expandNodeset a = [a] := by
  have hnone : ∀ c ∈ ([] : Str).head?, isWord c = false ∧ c ≠ '[' := by simp
  have hword := expand_word hne h.word hnone
  rw [List.append_nil] at hword
  exact hword

theorem expandRun_plain {run : List Str} (h : nodeParts a = (a, [])) : expandRun (a :: run) = expandNodeset a := by
  rw [expandRun, render_plain h]

theorem expandRun_single (ha : NodeName a) (h : Numbered a (nodeParts a) before last after stem init) :
    expandRun [a] = [a] := by
  have hne : a ≠ [] := by
    rw [h.text]
    simp [h.nonempty]
  rw [expandRun, render_single ha.plain h, expand_name hne ha]

/-- A range is read back without what stands behind it. -/
theorem expandRun_range {b : Str} {run : List Str} (ha : NodeName a)
    (h : Numbered a (nodeParts a) before last after stem init) (hne : before ≠ []) : expandRun (a :: b :: run) =
      ((List.range' (value last) (run.length + 2)).map fun n : Nat => before ++ padded last.length n) ++
        expandNodeset after := by
  have hword : ∀ c ∈ before, isWord c = true := fun c hc => by
    refine ha.word c ?_
    rw [h.text, List.append_assoc]
    exact List.mem_append_left _ hc
  have hend := fun n => padStart_ne_nil last.length n
  have hdigits := fun n => @padStart_digits last.length n
  have hcount : value last + (run.length + 1) + 1 - value last = run.length + 2 := by omega
  rw [expandRun, render_run ha.plain h, padded_value h.nonempty h.digits, padded_nat, ← rangeText,
    expand_range ⟨h.nonempty, h.digits⟩ ⟨hend _, hdigits _⟩ hne hword, value_padStart, hcount]

/-- A range with nothing before it is read back as its text. -/
theorem expandRun_bare {b : Str} {run : List Str} (ha : NodeName a)
    (h : Numbered a (nodeParts a) [] last after stem init) :
    ∃ text rest, expandRun (a :: b :: run) = (last ++ '-' :: text) :: rest ∧ text ≠ [] ∧ ∀ c ∈ text,
      isDigit c = true := by
  have hend := fun n => padStart_ne_nil last.length n
  have hdigits := fun n => @padStart_digits last.length n
  rw [expandRun, render_run ha.plain h, padded_value h.nonempty h.digits, padded_nat, ← rangeText, List.nil_append,
    expand_bare_range ⟨h.nonempty, h.digits⟩ ⟨hend _, hdigits _⟩]
  exact ⟨_, _, rfl, hend _, hdigits _⟩

theorem expandRun_of_folds {run : List Str} (hnames : ∀ name ∈ a :: run, NodeName name) (hne : a ≠ [])
    (hchain : (a :: run).IsChain fun x y => follows x y = true) (hfolds : (a :: run).IsChain Folds) :
    expandRun (a :: run) = a :: run := by
  obtain ⟨ha, hrun⟩ := List.forall_mem_cons.1 hnames
  rcases name_cases ha.plain with ⟨hparts, -⟩ | ⟨before, last, after, stem, init, h⟩
  · cases run with
    | nil => rw [expandRun_plain hparts, expand_name hne ha]
    | cons b run =>
      have hranged := (List.isChain_cons_cons.1 hfolds).1 (List.isChain_cons_cons.1 hchain).1
      rw [hparts] at hranged
      exact absurd hranged (not_ranged_plain ha.plain)
  · cases run with
    | nil => exact expandRun_single ha h
    | cons b run =>
      obtain ⟨hbefore, rfl⟩ := h.ranged_iff.1 ((List.isChain_cons_cons.1 hfolds).1 (List.isChain_cons_cons.1 hchain).1)
      rw [expandRun_range ha h hbefore, run_numbered (fun name hname => (hrun name hname).plain) h hchain]
      simp [expandNodeset, matchAll_nothing (rfl : expandRe [] = none)]

/-- What a run of numbered names is read back to starts with a digit in its first name. -/
theorem expandRun_numbered {run : List Str} (ha : NodeName a)
    (h : Numbered a (nodeParts a) before last after stem init) :
    ∃ first rest, expandRun (a :: run) = first :: rest ∧ (∃ c ∈ first, isDigit c = true) ∧
      (¬ (a :: run).IsChain Folds → (a :: run).IsChain (fun x y => follows x y = true) → first ≠ a) := by
  obtain ⟨d, digits, hlast⟩ := List.exists_cons_of_ne_nil h.nonempty
  have hd : isDigit d = true := h.digits d (hlast ▸ List.mem_cons_self)
  cases run with
  | nil =>
    refine ⟨a, [], expandRun_single ha h, ⟨d, ?_, hd⟩, fun hnot => absurd (List.isChain_singleton a) hnot⟩
    rw [h.text, hlast]
    simp
  | cons b run =>
    rcases eq_or_ne before [] with rfl | hbefore
    · obtain ⟨text, rest, hread, hne, hdigits⟩ := @expandRun_bare a last after stem init b run ha h
      refine ⟨_, rest, hread, ⟨d, by simp [hlast], hd⟩, fun _ _ heq => ?_⟩
      -- a name that went on like the range would have digits behind its last number
      rw [h.text, List.nil_append, List.append_cancel_left_eq] at heq
      obtain ⟨c, more, rfl⟩ := List.exists_cons_of_ne_nil hne
      have hnone := h.after_digits c (heq ▸ by simp)
      rw [hdigits c List.mem_cons_self] at hnone
      cases hnone
    · have hread := @expandRun_range a before last after stem init b run ha h hbefore
      rw [List.range'_succ, List.map_cons, padded_value h.nonempty h.digits, List.cons_append] at hread
      refine ⟨_, _, hread, ⟨d, by simp [hlast], hd⟩, fun hnot hchain heq =>
        hnot (folds_of_ranged hchain (h.ranged_iff.2 ⟨hbefore, ?_⟩))⟩
      rw [h.text] at heq
      exact List.append_right_eq_self.1 heq.symm

end

/-- The runs of names, as the loop over them finds them. -/
structure IsRuns (runs : List (List Str)) : Prop where
  nonempty : [] ∉ runs
  chain : ∀ run ∈ runs, run.IsChain fun x y => follows x y = true
  apart : runs.IsChain fun x y => ∀ z ∈ x.getLast?, ∀ a ∈ y.head?, follows z a = false

theorem follows_self {a : Str} (h : nodeParts a = (a, [])) : follows a a = true := by
  rw [follows, ofName, h]
  exact (isNext_plain rfl).2 ⟨rfl, rfl⟩

/-- Behind the runs of a name without numbers it does not come again. -/
theorem head_ne_plain {z : Str} (hz : nodeParts z = (z, [])) (hdigits : ∀ c ∈ z, isDigit c = false)
    {runs : List (List Str)}
    (hnonempty : [] ∉ runs) (hnames : ∀ run ∈ runs, ∀ name ∈ run, NodeName name) (hempty : ∀ run ∈ runs, [] ∉ run)
    (hapart : ∀ run ∈ runs.head?, ∀ a ∈ run.head?, follows z a = false) (tail : List Str) :
      runs.flatMap expandRun ≠ z :: tail := by
  intro heq
  cases runs with
  | nil => cases heq
  | cons run runs =>
    obtain ⟨a, run, rfl⟩ := List.exists_cons_of_ne_nil fun hnil : run = [] => hnonempty (hnil ▸ List.mem_cons_self)
    have ha := hnames _ List.mem_cons_self a List.mem_cons_self
    rw [List.flatMap_cons] at heq
    rcases name_cases ha.plain with ⟨hparts, -⟩ | ⟨before, last, after, stem, init, h⟩
    · have hne : a ≠ [] := fun hnil => hempty _ List.mem_cons_self (hnil ▸ List.mem_cons_self)
      rw [expandRun_plain hparts, expand_name hne ha, List.singleton_append] at heq
      obtain rfl := (List.cons.inj heq).1
      have hself := follows_self hz
      rw [hapart _ rfl a rfl] at hself
      cases hself
    · obtain ⟨first, rest, hread, ⟨c, hc, hdigit⟩, -⟩ := @expandRun_numbered a before last after stem init run ha h
      rw [hread, List.cons_append] at heq
      obtain rfl := (List.cons.inj heq).1
      rw [hdigits c hc] at hdigit
      cases hdigit

/-- All runs come back if and only if each does. -/
theorem expandRun_iff {runs : List (List Str)} (hruns : IsRuns runs)
    (hnames : ∀ run ∈ runs, ∀ name ∈ run, NodeName name)
    (hempty : ∀ run ∈ runs, [] ∉ run) : runs.flatMap expandRun = runs.flatten ↔ ∀ run ∈ runs, run.IsChain Folds := by
  induction runs with
  | nil => simp
  | cons run runs ih =>
    obtain ⟨a, run, rfl⟩ := List.exists_cons_of_ne_nil fun hnil : run = [] => hruns.nonempty (hnil ▸ List.mem_cons_self)
    obtain ⟨hrun, hchains⟩ := List.forall_mem_cons.1 hruns.chain
    obtain ⟨hrunNames, hrestNames⟩ := List.forall_mem_cons.1 hnames
    obtain ⟨hrunEmpty, hrestEmpty⟩ := List.forall_mem_cons.1 hempty
    have hrest : IsRuns runs := ⟨fun h => hruns.nonempty (List.mem_cons_of_mem _ h), hchains, hruns.apart.tail⟩
    have hne : a ≠ [] := fun hnil => hrunEmpty (hnil ▸ List.mem_cons_self)
    have ha := hrunNames a List.mem_cons_self
    rw [List.flatMap_cons, List.flatten_cons, List.forall_mem_cons]
    by_cases hfolds : (a :: run).IsChain Folds
    · rw [expandRun_of_folds hrunNames hne hrun hfolds, List.append_cancel_left_eq,
        ih hrest hrestNames hrestEmpty, eq_true hfolds, true_and]
    · refine iff_of_false (fun heq => ?_) fun hall => hfolds hall.1
      rcases name_cases ha.plain with ⟨hparts, hdigits⟩ | ⟨before, last, after, stem, init, h⟩
      · have hsame := run_plain (fun name hname => (hrunNames name (List.mem_cons_of_mem _ hname)).plain) hparts hrun
        have hlast : (a :: run).getLast? = some a := by
          rw [List.getLast?_eq_some_getLast (List.cons_ne_nil a run)]
          refine congrArg some ?_
          rcases List.mem_cons.1 (List.getLast_mem (List.cons_ne_nil a run)) with hmem | hmem
          · exact hmem
          · exact hsame _ hmem
        have hapart : ∀ other ∈ runs.head?, ∀ b ∈ other.head?, follows a b = false := fun other hother b hb => by
          obtain ⟨other, runs, rfl⟩ := List.exists_cons_of_ne_nil
            (List.head?_eq_none_iff.not.1 (by rw [Option.mem_def.1 hother]; simp))
          cases hother
          exact (List.isChain_cons_cons.1 hruns.apart).1 a hlast b hb
        cases run with
        | nil => exact hfolds (List.isChain_singleton a)
        | cons b run =>
          obtain rfl := hsame b List.mem_cons_self
          rw [expandRun_plain hparts, expand_name hne ha] at heq
          exact head_ne_plain hparts hdigits hrest.nonempty hrestNames hrestEmpty hapart _ (List.cons.inj heq).2
      · obtain ⟨first, rest, hread, -, hdiffers⟩ := @expandRun_numbered a before last after stem init run ha h
        rw [hread] at heq
        exact hdiffers hfolds hrun (List.cons.inj heq).1

/-! ## When a list comes back -/

/-- No name that a node set is expanded to is empty. -/
theorem nil_notMem_expandNodeset (nodeset : Str) : [] ∉ expandNodeset nodeset := by
  intro hmem
  obtain ⟨m, hm, hnil⟩ := List.mem_flatMap.1 hmem
  obtain ⟨part, rest, hmatch⟩ := mem_matchAll hm
  have hnodes : m.nodes ≠ [] := by
    unfold expandRe at hmatch
    dsimp only at hmatch
    split at hmatch
    · cases hmatch
    · next hword =>
      split at hmatch
      · cases hmatch
        exact hword
      · split at hmatch
        · cases hmatch
          exact hword
        · cases hmatch
          exact hword
  unfold expandMatch at hnil
  split at hnil
  · simp [hnodes] at hnil
  · obtain ⟨n, -, hname⟩ := List.mem_map.1 hnil
    exact hnodes (List.append_eq_nil_iff.1 hname).1
  · exact hnodes (List.mem_singleton.1 hnil).symm

theorem isRuns_splitBy (names : List Str) : IsRuns (names.splitBy follows) where
  nonempty := List.nil_notMem_splitBy _ _
  chain _ hrun := List.isChain_of_mem_splitBy hrun
  apart := by
    refine (List.isChain_getLast_head_splitBy follows names).imp fun x y h z hz a ha => ?_
    obtain ⟨hx, hy, hfalse⟩ := h
    rw [List.getLast?_eq_some_getLast hx, Option.mem_some_iff] at hz
    rw [List.head?_eq_some_head hy, Option.mem_some_iff] at ha
    rw [← hz, ← ha]
    exact hfalse

/-- Neighbours of different runs are not folded together. -/
theorem isChain_folds_iff (names : List Str) :
    names.IsChain Folds ↔ ∀ run ∈ names.splitBy follows, run.IsChain Folds := by
  have hruns := isRuns_splitBy names
  have hflat := @List.isChain_flatten _ Folds _ hruns.nonempty
  rw [List.flatten_splitBy] at hflat
  rw [hflat]
  refine and_iff_left (hruns.apart.imp fun x y h z hz a ha hnext => ?_)
  rw [h z hz a ha] at hnext
  cases hnext

/-- **Folded names expand to themselves** exactly when none is empty and neighbours that are counted together
end in their number and do not start with it. -/
theorem expand_fold_iff {names : List Str} (hnames : ∀ name ∈ names, NodeName name) :
    expandNodeset (foldNodeset names) = sorted names ↔ [] ∉ names ∧ (sorted names).IsChain Folds := by
  have hexpand : expandNodeset (foldNodeset names) = ((sorted names).splitBy follows).flatMap expandRun := by
    rw [foldNodeset_eq, expandNodeset_join, List.flatMap_map]
    rfl
  have hmem : ∀ {run : List Str} {name : Str}, run ∈ (sorted names).splitBy follows → name ∈ run → name ∈ names :=
    fun {run name} hrun hname => by
      rw [← mem_sorted, ← List.flatten_splitBy follows (sorted names)]
      exact List.mem_flatten.2 ⟨run, hrun, hname⟩
  by_cases hempty : [] ∈ names
  · refine iff_of_false (fun heq => ?_) fun hboth => hboth.1 hempty
    refine nil_notMem_expandNodeset (foldNodeset names) ?_
    rw [heq]
    exact mem_sorted.2 hempty
  · have hback := expandRun_iff (isRuns_splitBy (sorted names)) (fun run hrun name hname =>
      hnames name (hmem hrun hname))
      fun run hrun hnil => hempty (hmem hrun hnil)
    rw [List.flatten_splitBy, ← hexpand, ← isChain_folds_iff] at hback
    rw [hback, eq_true hempty, true_and]

theorem expand_fold_iff_racks : expandNodeset (foldNodeset ["login", "cn-0-10", "cn-0-09", "cn-0-10"]) =
    sorted ["login", "cn-0-10", "cn-0-09", "cn-0-10"] :=
  (expand_fold_iff (by decide)).2 ⟨by decide, by decide⟩

theorem suffix_not_read_back : ¬ ∀ names : List Str, (∀ name ∈ names, NodeName name) →
    expandNodeset (foldNodeset names) = sorted names := by
  intro hall
  have hnodes := hall ["n1-cn", "n2-cn"] (by decide)
  have hread : expandNodeset (foldNodeset ["n1-cn", "n2-cn"]) = ["n1".toList, "n2", "-cn"] := by decide
  rw [hread] at hnodes
  exact absurd hnodes (by decide)

end SlurmWeb.Frontend
