import SlurmWeb.Lib.Utf8

/-!
# LDAP search filters as texts

The grammar of RFC 4515, read by recursive descent, and the three-valued meaning of a filter on an entry.

* `parseItem_equality` — a text without reserved characters is the value it encodes.
* `texts_of_parse` — the items of a filter lie between parentheses of its text.
* `attr_of_parse`, `asserted_of_parse` — what an item compares with stands after the first `=` of its text.
-/

namespace LdapFilter

open Strings

/-! ## Filters -/

inductive Comparison
  | equality | approx | greaterOrEqual | lessOrEqual
deriving DecidableEq

inductive Item
  | compare (comparison : Comparison) (attr : Str) (value : Octets)
  | present (attr : Str)
  | substrings (attr : Str) (pieces : List Octets)
  /-- An extensible match: attribute, `:dn`, matching rule, value. -/
  | extensible (attr : Option Str) (dn : Bool) (rule : Option Str) (value : Octets)
deriving DecidableEq

/-- A list of filters is read as nested pairs. -/
inductive Filter
  | item (item : Item)
  | not (filter : Filter)
  | and (left right : Filter)
  | or (left right : Filter)

/-! ## Meaning -/

/-- What a search sees of an entry. -/
structure Entry where
  dn : Str
  /-- The values under an attribute description. -/
  values : Str → List Octets
  /-- Those in its distinguished name. -/
  dnValues : Str → List Octets

/-- The matching rules of the server, on a stored and an asserted value; `none` is Undefined. -/
structure Rules where
  equality : Str → Octets → Octets → Option Bool
  greaterOrEqual : Str → Octets → Octets → Option Bool
  lessOrEqual : Str → Octets → Octets → Option Bool
  approx : Str → Octets → Octets → Option Bool
  substrings : Str → Octets → List Octets → Option Bool
  rule : Str → Option Str → Bool → Entry → Octets → Option Bool

/-- True where a value matches, else Undefined where a match is. -/
def anyMatch (results : List (Option Bool)) : Option Bool :=
  if some true ∈ results then some true else if none ∈ results then none else some false

def Rules.compare (rules : Rules) : Comparison → Str → Octets → Octets → Option Bool
  | .equality => rules.equality
  | .approx => rules.approx
  | .greaterOrEqual => rules.greaterOrEqual
  | .lessOrEqual => rules.lessOrEqual

def evalItem (rules : Rules) (e : Entry) : Item → Option Bool
  | .compare comparison attr value =>
    anyMatch ((e.values attr).map fun stored => rules.compare comparison attr stored value)
  | .present attr => some (e.values attr ≠ [])
  | .substrings attr pieces => anyMatch ((e.values attr).map fun stored => rules.substrings attr stored pieces)
  | .extensible (some attr) dn none value =>
    anyMatch ((e.values attr ++ if dn then e.dnValues attr else []).map fun stored =>
      rules.equality attr stored value)
  | .extensible none _ none _ => none
  | .extensible attr dn (some rule) value => rules.rule rule attr dn e value

/-- Three-valued conjunction. -/
def and3 : Option Bool → Option Bool → Option Bool
  | some true, some true => some true
  | some false, _ | _, some false => some false
  | _, _ => none

def or3 : Option Bool → Option Bool → Option Bool
  | some false, some false => some false
  | some true, _ | _, some true => some true
  | _, _ => none

def eval (rules : Rules) (e : Entry) : Filter → Option Bool
  | .item item => evalItem rules e item
  | .not f => (eval rules e f).map (!·)
  | .and f g => and3 (eval rules e f) (eval rules e g)
  | .or f g => or3 (eval rules e f) (eval rules e g)

/-! ## Texts -/

def isParen (c : Char) : Bool := c == '(' || c == ')'

/-- The characters a value must escape. -/
def isSpecial (c : Char) : Bool := c.toNat == 0 || c == '(' || c == ')' || c == '*' || c == '\\'

/-- No character is reserved. -/
def Plain (s : Str) : Prop := ∀ c ∈ s, isSpecial c = false

instance (s : Str) : Decidable (Plain s) :=
  decidable_of_iff ((s.all fun c => !isSpecial c) = true) (by simp [Plain])

def hexValue (c : Char) : Option Nat :=
  if '0' ≤ c ∧ c ≤ '9' then some (c.toNat - 48)
  else if 'a' ≤ c ∧ c ≤ 'f' then some (c.toNat - 87)
  else if 'A' ≤ c ∧ c ≤ 'F' then some (c.toNat - 55)
  else none

/-- `valueencoding`: characters as they are, octets as `\` and two hexadecimal digits. -/
def decodeValue : Str → Option Octets
  | [] => some []
  | '\\' :: h :: l :: s =>
    match hexValue h, hexValue l with
    | some high, some low => (decodeValue s).map (UInt8.ofNat (16 * high + low) :: ·)
    | _, _ => none
  | c :: s => if isSpecial c then none else (decodeValue s).map (String.utf8EncodeChar c ++ ·)

def isAlpha (c : Char) : Bool := ('a' ≤ c && c ≤ 'z') || ('A' ≤ c && c ≤ 'Z')

def isDigit (c : Char) : Bool := '0' ≤ c && c ≤ '9'

/-- `1*keychar` -/
def isKeychars (s : Str) : Bool := s ≠ [] && s.all fun c => isAlpha c || isDigit c || c == '-'

/-- A name or a dotted number. -/
def isOid (s : Str) : Bool :=
  (s.head?.any isAlpha && isKeychars s) ||
    ((s.splitOn '.').all fun n => n ≠ [] && n.all isDigit && (n.head? ≠ some '0' || n == ['0'])) && '.' ∈ s

def isDescriptionChar (c : Char) : Bool := isAlpha c || isDigit c || c == '-' || c == '.' || c == ';'

/-- `attributedescription`: a type and its options. -/
def isDescription (s : Str) : Bool :=
  s.all isDescriptionChar && match s.splitOn ';' with
    | type :: options => isOid type && options.all isKeychars
    | [] => false

/-- `:dn` and the matching rule of an extensible match, after its attribute. -/
def parseExtensible (attr : Str) (marks : List Str) (value : Octets) : Option Item :=
  let attr? := if attr = [] then none else some attr
  if attr ≠ [] ∧ ¬ isDescription attr then none
  else match marks with
    | [] => if attr = [] then none else some (.extensible attr? false none value)
    | [mark] =>
      if mark = "dn".toList then if attr = [] then none else some (.extensible attr? true none value)
      else if isOid mark then some (.extensible attr? false (some mark) value) else none
    | [mark, rule] => if mark = "dn".toList ∧ isOid rule then some (.extensible attr? true (some rule) value) else none
    | _ => none

/-- What stands before the first `=`, and after it. -/
def splitItem (text : Str) : Option (Str × Str) :=
  match text.dropWhile (· ≠ '=') with
  | _ :: raw => some (text.takeWhile (· ≠ '='), raw)
  | [] => none

/-- `attr filtertype assertionvalue` -/
def parseComparison (comparison : Comparison) (attr raw : Str) : Option Item :=
  if isDescription attr then (decodeValue raw).map (.compare comparison attr) else none

/-- An item without its parentheses. -/
def parseItem (text : Str) : Option Item := do
  let (header, raw) ← splitItem text
  match header.getLast? with
  | some '~' => parseComparison .approx header.dropLast raw
  | some '>' => parseComparison .greaterOrEqual header.dropLast raw
  | some '<' => parseComparison .lessOrEqual header.dropLast raw
  | some ':' =>
    let value ← decodeValue raw
    match header.dropLast.splitOn ':' with
    | attr :: marks => parseExtensible attr marks value
    | [] => none
  | _ =>
    if ¬ isDescription header then none
    else if raw = ['*'] then some (.present header)
    else if '*' ∈ raw then ((raw.splitOn '*').mapM decodeValue).map (.substrings header)
    else parseComparison .equality header raw

/-- The parenthesis after a filter. -/
def closing : Option (Filter × Str) → Option (Filter × Str)
  | some (f, ')' :: rest) => some (f, rest)
  | _ => none

mutual

/-- A filter and what is left; the fuel bounds the nesting. -/
def parseFilter : Nat → Str → Option (Filter × Str)
  | 0, _ => none
  | fuel + 1, s =>
    match s with
    | '(' :: '&' :: s => closing (parseList fuel .and s)
    | '(' :: '|' :: s => closing (parseList fuel .or s)
    | '(' :: '!' :: s => (closing (parseFilter fuel s)).map fun (f, rest) => (.not f, rest)
    | '(' :: s => do
      let item ← parseItem (s.takeWhile fun c => !isParen c)
      closing (some (.item item, s.dropWhile fun c => !isParen c))
    | _ => none

/-- One filter after the other. -/
def parseList : Nat → (Filter → Filter → Filter) → Str → Option (Filter × Str)
  | 0, _, _ => none
  | fuel + 1, pair, s =>
    match parseFilter fuel s with
    | none => none
    | some (f, rest) =>
      match rest with
      | '(' :: _ => (parseList fuel pair rest).map fun (g, rest) => (pair f g, rest)
      | _ => some (f, rest)

end

/-- The filter of a whole text. -/
def parse (text : Str) : Option Filter :=
  match parseFilter (text.length + 1) text with
  | some (f, []) => some f
  | _ => none

/-! ## Where the items of a filter stand -/

def Filter.items : Filter → List Item
  | .item i => [i]
  | .not f => f.items
  | .and f g | .or f g => f.items ++ g.items

/-- The text stands between parentheses. -/
def Enclosed (text s : Str) : Prop := (∀ c ∈ text, isParen c = false) ∧ ∃ before after,
  s = before ++ '(' :: (text ++ ')' :: after)

theorem Enclosed.of_suffix {text s t : Str} (h : Enclosed text s) (hsuffix : s <:+ t) : Enclosed text t := by
  obtain ⟨hfree, before, after, rfl⟩ := h
  obtain ⟨pre, rfl⟩ := hsuffix
  exact ⟨hfree, pre ++ before, after, by simp⟩

/-- What a parser has read: the rest is a suffix, and the items stand between parentheses. -/
def Reads (s : Str) (f : Filter) (rest : Str) : Prop :=
  rest <:+ s ∧ ∀ item ∈ f.items, ∃ text, Enclosed text s ∧ parseItem text = some item

theorem Reads.of_suffix {s t rest : Str} {f : Filter} (h : Reads s f rest) (hsuffix : s <:+ t) : Reads t f rest := by
  refine ⟨h.1.trans hsuffix, fun item hitem => ?_⟩
  obtain ⟨text, henclosed, hparse⟩ := h.2 item hitem
  exact ⟨text, henclosed.of_suffix hsuffix, hparse⟩

theorem closing_eq_some {result : Option (Filter × Str)} {f : Filter} {rest : Str}
    (h : closing result = some (f, rest)) : result = some (f, ')' :: rest) := by
  unfold closing at h
  split at h
  · cases h
    rfl
  · cases h

theorem Reads.closed {s : Str} {f : Filter} {rest : Str} (h : Reads s f (')' :: rest)) : Reads s f rest :=
  ⟨(List.suffix_cons _ _).trans h.1, h.2⟩

/-- What the parsers read, by the nesting. -/
theorem reads_of_parse (fuel : Nat) :
    (∀ s f rest, parseFilter fuel s = some (f, rest) → Reads s f rest) ∧
      ∀ (pair : Filter → Filter → Filter), (∀ f g, (pair f g).items = f.items ++ g.items) →
        ∀ s f rest, parseList fuel pair s = some (f, rest) → Reads s f rest := by
  induction fuel with
  | zero => exact ⟨fun s f rest h => by simp [parseFilter] at h, fun pair _ s f rest h => by simp [parseList] at h⟩
  | succ fuel ih =>
    constructor
    · intro s f rest h
      unfold parseFilter at h
      split at h
      · rename_i s
        exact ((ih.2 .and (fun _ _ => rfl) s f _ (closing_eq_some h)).of_suffix ⟨['(', '&'], rfl⟩).closed
      · rename_i s
        exact ((ih.2 .or (fun _ _ => rfl) s f _ (closing_eq_some h)).of_suffix ⟨['(', '|'], rfl⟩).closed
      · rename_i s
        obtain ⟨⟨g, rest'⟩, hclosing, hpair⟩ := Option.map_eq_some_iff.1 h
        cases hpair
        exact ((ih.1 s g _ (closing_eq_some hclosing)).of_suffix ⟨['(', '!'], rfl⟩).closed
      · rename_i s _ _ _
        obtain ⟨item, hitem, hclosing⟩ := Option.bind_eq_some_iff.1 h
        have hrest := closing_eq_some hclosing
        simp only [Option.some.injEq, Prod.mk.injEq] at hrest
        obtain ⟨rfl, hdrop⟩ := hrest
        have hsplit := List.takeWhile_append_dropWhile (p := fun c => !isParen c) (l := s)
        rw [hdrop] at hsplit
        refine ⟨⟨'(' :: s.takeWhile (fun c => !isParen c) ++ [')'], ?_⟩, ?_⟩
        · simpa using hsplit
        · intro item' hitem'
          rw [List.mem_singleton.1 hitem']
          refine ⟨_, ⟨?_, [], rest, ?_⟩, hitem⟩
          · intro c hc
            simpa using List.mem_takeWhile_imp hc
          · simpa using hsplit.symm
      · cases h
    · intro pair hpair s f rest h
      unfold parseList at h
      split at h
      · cases h
      · rename_i g rest' hfirst
        have hg := ih.1 s g rest' hfirst
        split at h
        · obtain ⟨⟨g', rest''⟩, hlist, heq⟩ := Option.map_eq_some_iff.1 h
          cases heq
          have hg' := (ih.2 pair hpair _ _ _ hlist).of_suffix hg.1
          refine ⟨hg'.1, fun item hitem => ?_⟩
          rw [hpair, List.mem_append] at hitem
          exact hitem.elim (hg.2 item) (hg'.2 item)
        · cases h
          exact hg

/-- The parts of a text between parentheses. -/
def segments (s : Str) : List Str := s.splitOnP isParen

theorem mem_segments_of_enclosed {text s : Str} (h : Enclosed text s) : text ∈ segments s := by
  obtain ⟨hfree, before, after, rfl⟩ := h
  rw [segments, List.splitOnP_append_cons _ _ (by decide), List.splitOnP_append_cons_of_forall_mem hfree _ (by decide)]
  simp

/-- Every item is read from a part between parentheses. -/
theorem texts_of_parse {text : Str} {f : Filter} (h : parse text = some f) :
    ∀ item ∈ f.items, ∃ part ∈ segments text, parseItem part = some item := by
  intro item hitem
  unfold parse at h
  split at h
  · rename_i g hparse
    cases h
    obtain ⟨part, henclosed, hpart⟩ := ((reads_of_parse _).1 _ _ _ hparse).2 item hitem
    exact ⟨part, mem_segments_of_enclosed henclosed, hpart⟩
  · cases h

/-! ## Values -/

/-- A text without reserved characters encodes itself. -/
theorem decodeValue_plain {s : Str} (h : Plain s) : decodeValue s = some (utf8 s) := by
  induction s with
  | nil => rfl
  | cons c s ih =>
    have hc := h c List.mem_cons_self
    have hs := ih fun d hd => h d (List.mem_cons_of_mem _ hd)
    unfold decodeValue
    split
    · rename_i heq
      cases heq
    · rename_i heq
      rw [(List.cons.inj heq).1] at hc
      cases hc
    · rename_i heq
      cases heq
      simp [hc, hs]

/-- A value is not longer than its encoding, and as long only where nothing is escaped. -/
theorem decodeValue_length (s : Str) : ∀ v, decodeValue s = some v →
    v.length ≤ (utf8 s).length ∧ (v.length = (utf8 s).length → Plain s) := by
  fun_induction decodeValue s with
  | case1 =>
    rintro v ⟨⟩
    exact ⟨Nat.le_refl _, fun _ c hc => by cases hc⟩
  | case2 h l s high _ low _ ih =>
    intro v hv
    obtain ⟨rest, hrest, rfl⟩ := Option.map_eq_some_iff.1 hv
    have hle := (ih rest hrest).1
    have hpos := And.intro h.utf8Size_pos (And.intro l.utf8Size_pos ('\\').utf8Size_pos)
    simp only [length_utf8_cons, List.length_cons]
    omega
  | case3 => intro v hv; cases hv
  | case4 => intro v hv; cases hv
  | case5 c s _ hc ih =>
    intro v hv
    obtain ⟨rest, hrest, rfl⟩ := Option.map_eq_some_iff.1 hv
    obtain ⟨hle, hplain⟩ := ih rest hrest
    rw [utf8_cons, List.length_append, List.length_append]
    refine ⟨by omega, fun hlength d hd => ?_⟩
    rcases List.mem_cons.1 hd with rfl | hd
    · simpa using hc
    · exact hplain (by omega) d hd

/-! ## Items -/

/-- The attribute an item names. -/
def Item.attr : Item → Option Str
  | .compare _ attr _ | .present attr | .substrings attr _ => some attr
  | .extensible attr _ _ _ => attr

/-- The value an item compares by equality. -/
def Item.asserted : Item → Option Octets
  | .compare .equality _ value | .compare .approx _ value | .extensible _ _ none value => some value
  | _ => none

theorem splitItem_eq_some {text header raw : Str} : splitItem text = some (header, raw) ↔
    text = header ++ '=' :: raw ∧ ∀ c ∈ header, c ≠ '=' := by
  constructor
  · intro h
    unfold splitItem at h
    split at h
    · rename_i c raw' hdrop
      cases h
      have hc : c = '=' := by
        have hhead := List.head?_dropWhile_not (fun c => decide (c ≠ '=')) text
        rw [hdrop] at hhead
        simpa using hhead
      have hsplit := List.takeWhile_append_dropWhile (p := fun c => decide (c ≠ '=')) (l := text)
      rw [hdrop, hc] at hsplit
      refine ⟨hsplit.symm, fun d hd => ?_⟩
      simpa using List.mem_takeWhile_imp hd
    · cases h
  · rintro ⟨rfl, hfree⟩
    have hall : ∀ c ∈ header, decide (c ≠ '=') = true := by simpa using hfree
    unfold splitItem
    rw [List.dropWhile_append_of_pos hall, List.takeWhile_append_of_pos hall]
    simp

theorem parseExtensible_shape {attr : Str} {marks : List Str} {value : Octets} {item : Item}
    (h : parseExtensible attr marks value = some item) : ∃ attr? dn rule, item = .extensible attr? dn rule value := by
  unfold parseExtensible at h
  simp only at h
  repeat' split at h
  all_goals first
    | cases h
      exact ⟨_, _, _, rfl⟩
    | cases h

/-- The value stands after the first `=`. -/
theorem asserted_of_parse {text : Str} {item : Item} {v : Octets} (h : parseItem text = some item)
    (hv : item.asserted = some v) : ∃ header raw, splitItem text = some (header, raw) ∧ decodeValue raw = some v := by
  have hcomparison : ∀ comparison attr raw, parseComparison comparison attr raw = some item →
      decodeValue raw = some v := by
    intro comparison attr raw hparse
    unfold parseComparison at hparse
    split at hparse
    · obtain ⟨value, hdecode, rfl⟩ := Option.map_eq_some_iff.1 hparse
      cases comparison <;> simp [Item.asserted] at hv
      all_goals rw [hdecode, hv]
    · cases hparse
  unfold parseItem at h
  obtain ⟨⟨header, raw⟩, hsplit, h⟩ := Option.bind_eq_some_iff.1 h
  refine ⟨header, raw, hsplit, ?_⟩
  simp only at h
  split at h
  · exact hcomparison _ _ _ h
  · exact hcomparison _ _ _ h
  · exact hcomparison _ _ _ h
  · obtain ⟨value, hdecode, h⟩ := Option.bind_eq_some_iff.1 h
    split at h
    · obtain ⟨attr?, dn, rule, rfl⟩ := parseExtensible_shape h
      cases rule with
      | none => rw [hdecode, Option.some.inj hv]
      | some rule => cases hv
    · cases h
  · split at h
    · cases h
    · split at h
      · cases h
        cases hv
      · split at h
        · obtain ⟨pieces, -, rfl⟩ := Option.map_eq_some_iff.1 h
          cases hv
        · exact hcomparison _ _ _ h

theorem description_last {s : Str} (h : isDescription s = true) : ∀ c ∈ s, isDescriptionChar c = true := by
  rw [isDescription, Bool.and_eq_true, List.all_eq_true] at h
  exact h.1

/-- A header that ends in no mark is the attribute. -/
theorem attr_of_parse {text header raw : Str} {item : Item} (hsplit : splitItem text = some (header, raw))
    (hheader : isDescription header = true) (h : parseItem text = some item) : item.attr = some header := by
  unfold parseItem at h
  rw [hsplit] at h
  simp only [Option.bind_eq_bind, Option.bind_some] at h
  have hlast : ∀ c, header.getLast? = some c → isDescriptionChar c = true := fun c hc =>
    description_last hheader c (List.mem_of_getLast? hc)
  split at h
  · rename_i hmark
    cases hlast _ hmark
  · rename_i hmark
    cases hlast _ hmark
  · rename_i hmark
    cases hlast _ hmark
  · rename_i hmark
    cases hlast _ hmark
  · rw [if_neg (by simpa using hheader)] at h
    split at h
    · cases h
      rfl
    · split at h
      · obtain ⟨pieces, -, rfl⟩ := Option.map_eq_some_iff.1 h
        rfl
      · rw [parseComparison, if_pos hheader] at h
        obtain ⟨value, -, rfl⟩ := Option.map_eq_some_iff.1 h
        rfl

/-- A text without reserved characters is the value it encodes. -/
theorem parseItem_equality {attr value : Str} (hattr : isDescription attr = true) (hvalue : Plain value) :
    parseItem (attr ++ '=' :: value) = some (.compare .equality attr (utf8 value)) := by
  have hchars := description_last hattr
  have hsplit : splitItem (attr ++ '=' :: value) = some (attr, value) := by
    refine splitItem_eq_some.2 ⟨rfl, fun c hc => ?_⟩
    rintro rfl
    cases hchars _ hc
  have hlast : ∀ c, attr.getLast? = some c → isDescriptionChar c = true := fun c hc =>
    hchars c (List.mem_of_getLast? hc)
  have hstar : '*' ∉ value := fun hmem => by cases hvalue _ hmem
  unfold parseItem
  rw [hsplit]
  simp only [Option.bind_eq_bind, Option.bind_some]
  split
  · rename_i hmark
    cases hlast _ hmark
  · rename_i hmark
    cases hlast _ hmark
  · rename_i hmark
    cases hlast _ hmark
  · rename_i hmark
    cases hlast _ hmark
  · rw [if_neg (by simpa using hattr), if_neg (by rintro rfl; exact hstar (List.mem_singleton_self _)), if_neg hstar,
      parseComparison, if_pos hattr, decodeValue_plain hvalue]
    rfl

end LdapFilter
