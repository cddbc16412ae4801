import SlurmWeb.Lib.LdapFilter

/-!
# LDAP filters put together from texts

A text put between a template's `attribute=` and `)` is the value to compare with only when it holds none
of the characters the grammar reserves.

* `parses_all`, `parses_any` — templates filled with plain texts are read as they were meant.
* `eval_same_of_special` — with a reserved character in a text, the filter cannot tell an entry with that very
  value from another one.
-/

namespace LdapFilter

open Strings

/-! ## Filters written as texts -/

/-- `(attribute=value)` -/
def assertion (attr value : Str) : Str := '(' :: ((attr ++ '=' :: value) ++ [')'])

/-- Filters joined one after the other, as a list is read. -/
def joined (pair : Filter → Filter → Filter) : Filter → List Filter → Filter
  | f, [] => f
  | f, g :: gs => pair f (joined pair g gs)

/-- The text is read as the filter, with this much fuel, whatever comes after it. -/
def Parses (fuel : Nat) (text : Str) (f : Filter) : Prop :=
  (∃ body, text = '(' :: body) ∧ ∀ n, fuel ≤ n → ∀ rest, parseFilter n (text ++ rest) = some (f, rest)

theorem Parses.mono {m n : Nat} {text : Str} {f : Filter} (h : Parses m text f) (hle : m ≤ n) : Parses n text f :=
  ⟨h.1, fun k hk => h.2 k (hle.trans hk)⟩

theorem parse_of_parses {fuel : Nat} {text : Str} {f : Filter} (h : Parses fuel text f)
    (hfuel : fuel ≤ text.length + 1) : parse text = some f := by
  have hread := h.2 _ hfuel []
  rw [List.append_nil] at hread
  rw [parse, hread]

theorem isParen_of_description {c : Char} (h : isDescriptionChar c = true) : isParen c = false := by
  cases hparen : isParen c with
  | false => rfl
  | true =>
    rcases Bool.or_eq_true_iff.1 hparen with hc | hc
    · rw [beq_iff_eq.1 hc] at h
      cases h
    · rw [beq_iff_eq.1 hc] at h
      cases h

theorem isParen_of_plain {c : Char} (h : isSpecial c = false) : isParen c = false := by
  simp only [isSpecial, Bool.or_eq_false_iff] at h
  simp [isParen, h.1.1.1.2, h.1.1.2]

theorem description_ne_nil {s : Str} (h : isDescription s = true) : s ≠ [] := by
  rintro rfl
  revert h
  decide

theorem parses_assertion {attr value : Str} (hattr : isDescription attr = true) (hvalue : Plain value) :
    Parses 1 (assertion attr value) (.item (.compare .equality attr (utf8 value))) := by
  refine ⟨⟨_, rfl⟩, ?_⟩
  rintro (_ | n) hn rest
  · omega
  have hfree : ∀ c ∈ attr ++ '=' :: value, (!isParen c) = true := by
    intro c hc
    rw [Bool.not_eq_true']
    rcases List.mem_append.1 hc with hc | hc
    · exact isParen_of_description (description_last hattr c hc)
    · rcases List.mem_cons.1 hc with rfl | hc
      · rfl
      · exact isParen_of_plain (hvalue c hc)
  obtain ⟨c, attr', hcons⟩ := List.exists_cons_of_ne_nil (description_ne_nil hattr)
  have hfirst := description_last hattr c (by rw [hcons]; exact List.mem_cons_self)
  have htext : assertion attr value ++ rest = '(' :: ((attr ++ '=' :: value) ++ ')' :: rest) := by simp [assertion]
  rw [htext]
  unfold parseFilter
  split
  · rename_i heq
    rw [hcons] at heq
    cases (List.cons.inj heq).2
    cases hfirst
  · rename_i heq
    rw [hcons] at heq
    cases (List.cons.inj heq).2
    cases hfirst
  · rename_i heq
    rw [hcons] at heq
    cases (List.cons.inj heq).2
    cases hfirst
  · rename_i heq
    cases (List.cons.inj heq).2
    rw [List.takeWhile_append_of_pos hfree, List.dropWhile_append_of_pos hfree]
    simp [isParen, parseItem_equality hattr hvalue, closing]
  · rename_i hno
    exact absurd rfl (hno _)

/-- A list of texts is read as the list of their filters. -/
theorem parseList_flatten {fuel : Nat} {pair : Filter → Filter → Filter} :
    ∀ {texts : List Str} {f : Filter} {fs : List Filter},
    List.Forall₂ (Parses fuel) texts (f :: fs) → ∀ n, fuel + texts.length ≤ n → ∀ rest,
      parseList n pair (texts.flatten ++ ')' :: rest) = some (joined pair f fs, ')' :: rest)
  | [], _, _, h, _, _, _ => by cases h
  | text :: texts, f, fs, .cons hfirst hmore, n, hn, rest => by
    obtain ⟨n, rfl⟩ : ∃ k, n = k + 1 := ⟨n - 1, by simp at hn; omega⟩
    have hread := hfirst.2 n (by simp at hn; omega) (texts.flatten ++ ')' :: rest)
    unfold parseList
    rw [List.flatten_cons, List.append_assoc, hread]
    cases hmore with
    | nil => rfl
    | @cons text' f' texts' fs' hsecond hrest =>
      have hlist := @parseList_flatten _ pair _ _ _ (.cons hsecond hrest) n (by simp at hn ⊢; omega) rest
      obtain ⟨body, hbody⟩ := hsecond.1
      simp only [hlist]
      simp [hbody, joined]

theorem parses_and {fuel : Nat} {texts : List Str} {f : Filter} {fs : List Filter}
    (h : List.Forall₂ (Parses fuel) texts (f :: fs)) :
    Parses (fuel + texts.length + 1) ('(' :: '&' :: (texts.flatten ++ [')'])) (joined .and f fs) := by
  refine ⟨⟨_, rfl⟩, ?_⟩
  rintro (_ | n) hn rest
  · omega
  · have hlist := @parseList_flatten _ .and _ _ _ h n (by omega) rest
    simp [parseFilter, hlist, closing]

theorem parses_or {fuel : Nat} {texts : List Str} {f : Filter} {fs : List Filter}
    (h : List.Forall₂ (Parses fuel) texts (f :: fs)) :
    Parses (fuel + texts.length + 1) ('(' :: '|' :: (texts.flatten ++ [')'])) (joined .or f fs) := by
  refine ⟨⟨_, rfl⟩, ?_⟩
  rintro (_ | n) hn rest
  · omega
  · have hlist := @parseList_flatten _ .or _ _ _ h n (by omega) rest
    simp [parseFilter, hlist, closing]

/-- The item that asks for an attribute with a value. -/
def equals (attr value : Str) : Filter := .item (.compare .equality attr (utf8 value))

/-- The texts of a template, one for each attribute. -/
def assertions (pairs : List (Str × Str)) : List Str := pairs.map fun p => assertion p.1 p.2

theorem length_assertions (pairs : List (Str × Str)) : pairs.length ≤ (assertions pairs).flatten.length := by
  induction pairs with
  | nil => exact Nat.le_refl _
  | cons p pairs ih =>
    rw [assertions, List.map_cons, ← assertions, List.flatten_cons, List.length_append, List.length_cons, assertion]
    simp only [List.length_cons]
    omega

/-- The grammar takes the attributes and the values as they are. -/
def Fits (pairs : List (Str × Str)) : Prop := ∀ p ∈ pairs, isDescription p.1 = true ∧ Plain p.2

theorem fits_cons {p : Str × Str} {pairs : List (Str × Str)} :
    Fits (p :: pairs) ↔ (isDescription p.1 = true ∧ Plain p.2) ∧ Fits pairs := List.forall_mem_cons

theorem parses_assertions {pairs : List (Str × Str)} (h : Fits pairs) :
    List.Forall₂ (Parses 1) (assertions pairs) (pairs.map fun p => equals p.1 p.2) := by
  rw [assertions, List.forall₂_map_left_iff, List.forall₂_map_right_iff, List.forall₂_same]
  exact fun p hp => parses_assertion (h p hp).1 (h p hp).2

/-! ### What they mean -/

section Meaning

variable {rules : Rules} {e : Entry}

theorem eval_and_true {f : Filter} {fs : List Filter} :
    eval rules e (joined .and f fs) = some true ↔ ∀ g ∈ f :: fs, eval rules e g = some true := by
  induction fs generalizing f with
  | nil => simp [joined]
  | cons g fs ih =>
    rw [joined, eval, List.forall_mem_cons, ← ih]
    rcases eval rules e f with _ | _ | _ <;> rcases eval rules e (joined .and g fs) with _ | _ | _ <;> simp [and3]

theorem eval_or_true {f : Filter} {fs : List Filter} :
    eval rules e (joined .or f fs) = some true ↔ ∃ g ∈ f :: fs, eval rules e g = some true := by
  induction fs generalizing f with
  | nil => simp [joined]
  | cons g fs ih =>
    have hcons : (∃ h ∈ f :: g :: fs, eval rules e h = some true) ↔
        eval rules e f = some true ∨ ∃ h ∈ g :: fs, eval rules e h = some true := by simp
    rw [joined, eval, hcons, ← ih]
    rcases eval rules e f with _ | _ | _ <;> rcases eval rules e (joined .or g fs) with _ | _ | _ <;> simp [or3]

theorem anyMatch_true {results : List (Option Bool)} : anyMatch results = some true ↔ some true ∈ results := by
  by_cases h : some true ∈ results
  · simp [anyMatch, h]
  · by_cases hnone : none ∈ results <;> simp [anyMatch, h, hnone]

/-- An equality holds of an entry that has the value. -/
theorem eval_equality_true {attr : Str} {value : Octets} :
    eval rules e (.item (.compare .equality attr value)) = some true ↔
      ∃ stored ∈ e.values attr, rules.equality attr stored value = some true := by
  rw [eval, evalItem, anyMatch_true]
  simp [Rules.compare]

/-- The entry has the value, by the matching rule of the attribute. -/
def Holds (rules : Rules) (e : Entry) (attr value : Str) : Prop :=
  ∃ stored ∈ e.values attr, rules.equality attr stored (utf8 value) = some true

/-- A template that asks for all of a list. -/
theorem parses_all {pairs : List (Str × Str)} (hne : pairs ≠ []) (h : Fits pairs) :
    ∃ f, Parses (pairs.length + 2) ('(' :: '&' :: ((assertions pairs).flatten ++ [')'])) f ∧
      ∀ rules e, eval rules e f = some true ↔ ∀ p ∈ pairs, Holds rules e p.1 p.2 := by
  obtain ⟨p, pairs, rfl⟩ := List.exists_cons_of_ne_nil hne
  refine ⟨_, (parses_and (parses_assertions h)).mono ?_, fun rules e => ?_⟩
  · simp [assertions]
    omega
  · rw [eval_and_true, ← List.map_cons (f := fun p : Str × Str => equals p.1 p.2), List.forall_mem_map]
    exact forall₂_congr fun _ _ => eval_equality_true

/-- A template that asks for one of a list. -/
theorem parses_any {pairs : List (Str × Str)} (hne : pairs ≠ []) (h : Fits pairs) :
    ∃ f, Parses (pairs.length + 2) ('(' :: '|' :: ((assertions pairs).flatten ++ [')'])) f ∧
      ∀ rules e, eval rules e f = some true ↔ ∃ p ∈ pairs, Holds rules e p.1 p.2 := by
  obtain ⟨p, pairs, rfl⟩ := List.exists_cons_of_ne_nil hne
  refine ⟨_, (parses_or (parses_assertions h)).mono ?_, fun rules e => ?_⟩
  · simp [assertions]
    omega
  · rw [eval_or_true, ← List.map_cons (f := fun p : Str × Str => equals p.1 p.2)]
    constructor
    · rintro ⟨_, hg, heval⟩
      obtain ⟨q, hq, rfl⟩ := List.mem_map.1 hg
      exact ⟨q, hq, eval_equality_true.1 heval⟩
    · rintro ⟨q, hq, hholds⟩
      exact ⟨_, List.mem_map_of_mem hq, eval_equality_true.2 hholds⟩

end Meaning

/-! ## Texts that hold reserved characters -/

/-- A server that compares octets, and has no other rule. -/
def exactRules : Rules where
  equality _ stored asserted := some (stored = asserted)
  greaterOrEqual _ _ _ := none
  lessOrEqual _ _ _ := none
  approx _ stored asserted := some (stored = asserted)
  substrings _ _ _ := none
  rule _ _ _ _ _ := none

/-- An entry with one value under an attribute. -/
def holding (dn attr : Str) (value : Octets) (others : Str → List Octets) : Entry :=
  ⟨dn, fun a => if a = attr then [value] else others a, fun _ => []⟩

section Twins

variable {dn attr : Str} {v w : Octets} {others : Str → List Octets}

theorem evalItem_twins {item : Item} (h : item.attr = some attr → ∀ value, item.asserted = some value →
    value ≠ v ∧ value ≠ w) :
    evalItem exactRules (holding dn attr v others) item = evalItem exactRules (holding dn attr w others) item := by
  have hvalues : ∀ a, a ≠ attr → (holding dn attr v others).values a = (holding dn attr w others).values a := by
    intro a ha
    simp [holding, ha]
  have hequality : ∀ {value : Octets}, value ≠ v ∧ value ≠ w → decide (v = value) = decide (w = value) := by
    rintro value ⟨hv, hw⟩
    simp [Ne.symm hv, Ne.symm hw]
  cases item with
  | compare comparison a value =>
    by_cases ha : a = attr
    · subst ha
      cases comparison with
      | equality | approx => simp [evalItem, holding, Rules.compare, exactRules, hequality (h rfl value rfl)]
      | greaterOrEqual | lessOrEqual => simp [evalItem, holding, Rules.compare, exactRules]
    · simp only [evalItem, hvalues a ha]
  | present a =>
    by_cases ha : a = attr
    · simp [evalItem, holding, ha]
    · simp only [evalItem, hvalues a ha]
  | substrings a pieces =>
    by_cases ha : a = attr
    · simp [evalItem, holding, ha, exactRules]
    · simp only [evalItem, hvalues a ha]
  | extensible a? isDn rule value =>
    cases rule with
    | some rule => cases a? <;> rfl
    | none =>
      cases a? with
      | none => rfl
      | some a =>
        by_cases ha : a = attr
        · subst ha
          simp [evalItem, holding, exactRules, hequality (h rfl value rfl)]
        · simp only [evalItem, hvalues a ha]
          rfl

/-- A filter is blind to what none of its items sees. -/
theorem eval_congr {rules : Rules} {e e' : Entry} : ∀ {f : Filter},
    (∀ item ∈ f.items, evalItem rules e item = evalItem rules e' item) → eval rules e f = eval rules e' f
  | .item i, h => h i (List.mem_singleton_self i)
  | .not f, h => by rw [eval, eval, eval_congr (f := f) h]
  | .and f g, h => by
    rw [eval, eval, eval_congr (f := f) fun i hi => h i (List.mem_append_left _ hi),
      eval_congr (f := g) fun i hi => h i (List.mem_append_right _ hi)]
  | .or f g, h => by
    rw [eval, eval, eval_congr (f := f) fun i hi => h i (List.mem_append_left _ hi),
      eval_congr (f := g) fun i hi => h i (List.mem_append_right _ hi)]

end Twins

/-- Between the parentheses of the text, no item names the attribute. -/
def Unnamed (attr s : Str) : Prop := ∀ part ∈ segments s, ∀ item, parseItem part = some item → item.attr ≠ some attr

section Unnamed

variable {attr : Str}

theorem unnamed_split {s t : Str} {c : Char} (hc : isParen c = true) :
    Unnamed attr (s ++ c :: t) ↔ Unnamed attr s ∧ Unnamed attr t := by
  simp only [Unnamed, segments, List.splitOnP_append_cons _ _ hc, List.mem_append, or_imp, forall_and]

theorem segments_of_free {s : Str} (h : ∀ c ∈ s, isParen c = false) : segments s = [s] :=
  List.splitOnP_eq_singleton h

/-- A text without `=` is no item. -/
theorem unnamed_of_free {s : Str} (h : ∀ c ∈ s, isParen c = false) (heq : '=' ∉ s) : Unnamed attr s := by
  intro part hpart item hitem
  rw [segments_of_free h, List.mem_singleton] at hpart
  subst hpart
  have hsplit : splitItem part = none := by
    cases hsplit : splitItem part with
    | none => rfl
    | some p =>
      have htext := (splitItem_eq_some.1 hsplit).1
      exact absurd (by rw [htext]; simp) heq
  rw [parseItem, hsplit] at hitem
  cases hitem

theorem unnamed_nil : Unnamed attr [] := unnamed_of_free (fun _ h => by cases h) (by simp)

theorem unnamed_cons {t : Str} {c : Char} (hc : isParen c = true) : Unnamed attr (c :: t) ↔ Unnamed attr t := by
  have hsplit := @unnamed_split attr [] t c hc
  rw [List.nil_append] at hsplit
  rw [hsplit, and_iff_right unnamed_nil]

theorem unnamed_assertions {pairs : List (Str × Str)} (h : Fits pairs) (hne : ∀ p ∈ pairs, p.1 ≠ attr) {t : Str}
    (ht : Unnamed attr t) : Unnamed attr ((assertions pairs).flatten ++ t) := by
  induction pairs with
  | nil => exact ht
  | cons p pairs ih =>
    obtain ⟨hdescription, hplain⟩ := h p List.mem_cons_self
    have hmore := ih (fun q hq => h q (List.mem_cons_of_mem _ hq)) fun q hq => hne q (List.mem_cons_of_mem _ hq)
    rw [assertions, List.map_cons, ← assertions, List.flatten_cons, assertion, List.cons_append, List.cons_append,
      unnamed_cons (by decide),
      List.append_assoc, List.append_assoc, List.singleton_append, unnamed_split (by decide)]
    refine ⟨fun part hpart item hitem => ?_, hmore⟩
    have hchars := description_last hdescription
    have hfree : ∀ c ∈ p.1 ++ '=' :: p.2, isParen c = false := by
      intro c hc
      rcases List.mem_append.1 hc with hc | hc
      · exact isParen_of_description (hchars c hc)
      · rcases List.mem_cons.1 hc with rfl | hc
        · rfl
        · exact isParen_of_plain (hplain c hc)
    rw [segments_of_free hfree, List.mem_singleton] at hpart
    subst hpart
    rw [attr_of_parse (splitItem_eq_some.2 ⟨rfl, ?_⟩) hdescription hitem]
    · exact fun heq => hne p List.mem_cons_self (Option.some.inj heq)
    · rintro c hc rfl
      cases hchars _ hc

/-- An operator before a parenthesis is no item. -/
theorem unnamed_operator {t : Str} {c : Char} (hc : isParen c = true) (ht : Unnamed attr (c :: t)) {operator : Char}
    (hfree : isParen operator = false) (hequal : '=' ≠ operator) : Unnamed attr (operator :: c :: t) := by
  rw [← List.singleton_append, unnamed_split hc]
  refine ⟨unnamed_of_free (fun d hd => ?_) ?_, (unnamed_cons hc).1 ht⟩
  · rw [List.mem_singleton.1 hd, hfree]
  · simpa using hequal

/-- The items of a template are those of its own attributes. -/
theorem unnamed_template {pairs : List (Str × Str)} (hpairs : pairs ≠ []) (h : Fits pairs)
    (hne : ∀ p ∈ pairs, p.1 ≠ attr)
    {t : Str} (ht : Unnamed attr t) {operator : Char} (hfree : isParen operator = false) (hequal : '=' ≠ operator) :
    Unnamed attr ('(' :: operator :: ((assertions pairs).flatten ++ t)) := by
  have hitems := unnamed_assertions h hne ht
  obtain ⟨p, pairs, rfl⟩ := List.exists_cons_of_ne_nil hpairs
  rw [unnamed_cons (by decide)]
  exact unnamed_operator (by decide) hitems hfree hequal

end Unnamed

theorem segments_free_append {s : Str} (h : ∀ c ∈ s, isParen c = false) (t : Str) :
    segments (s ++ t) = (segments t).modifyHead (s ++ ·) := by
  induction s with
  | nil =>
    rw [List.nil_append]
    cases segments t <;> rfl
  | cons c s ih =>
    have hc := h c List.mem_cons_self
    rw [List.cons_append, segments, List.splitOnP_cons_eq_if_modifyHead, if_neg (by simp [hc])]
    rw [← segments, ih fun d hd => h d (List.mem_cons_of_mem _ hd), List.modifyHead_modifyHead]
    rfl

theorem head_segments {s first : Str} {more : List Str} (h : segments s = first :: more) : first <+: s := by
  induction s generalizing first more with
  | nil =>
    cases h
    exact List.nil_prefix
  | cons c s ih =>
    rw [segments, List.splitOnP_cons_eq_if_modifyHead] at h
    split at h
    · cases h
      exact List.nil_prefix
    · obtain ⟨first', more', hsplit⟩ := List.exists_cons_of_ne_nil (List.splitOnP_ne_nil isParen s)
      rw [hsplit, List.modifyHead_cons] at h
      cases h
      exact List.cons_prefix_cons.2 ⟨rfl, ih hsplit⟩

/-- A part of a text is a piece of it. -/
theorem infix_of_mem_segments {part s : Str} (h : part ∈ segments s) : part <:+: s := by
  induction s generalizing part with
  | nil =>
    rw [List.mem_singleton.1 h]
    exact List.infix_rfl
  | cons c s ih =>
    have hcons := h
    rw [segments, List.splitOnP_cons_eq_if_modifyHead] at h
    split at h
    · rcases List.mem_cons.1 h with rfl | h
      · exact List.nil_infix
      · exact (ih h).trans (List.suffix_cons c s).isInfix
    · rename_i hc
      obtain ⟨first, more, hsplit⟩ := List.exists_cons_of_ne_nil (List.splitOnP_ne_nil isParen s)
      rw [hsplit, List.modifyHead_cons] at h
      rcases List.mem_cons.1 h with rfl | h
      · refine (@head_segments (c :: s) _ more ?_).isInfix
        rw [segments, List.splitOnP_cons_eq_if_modifyHead, if_neg hc, hsplit, List.modifyHead_cons]
      · have hmem : part ∈ segments s := by
          rw [segments, hsplit]
          exact List.mem_cons_of_mem _ h
        exact (ih hmem).trans (List.suffix_cons c s).isInfix

/-- A piece is not longer than the text, and as long only when it is all of it. -/
theorem utf8_length_of_infix {part s : Str} (h : part <:+: s) :
    (utf8 part).length ≤ (utf8 s).length ∧ ((utf8 part).length = (utf8 s).length → part = s) := by
  obtain ⟨before, after, rfl⟩ := h
  simp only [utf8_append, List.length_append]
  refine ⟨by omega, fun heq => ?_⟩
  rw [eq_nil_of_utf8_length (s := before) (by omega), eq_nil_of_utf8_length (s := after) (by omega)]
  simp

/-- What an item within a text compares with is not the text, unless the text has no reserved character. -/
theorem asserted_of_piece {raw s : Str} {value : Octets} (hraw : raw <:+: s) (hdecode : decodeValue raw = some value)
    (hspecial : ¬ Plain s) : value ≠ utf8 s ∧ value.length ≤ (utf8 s).length := by
  obtain ⟨hle, hplain⟩ := decodeValue_length raw value hdecode
  obtain ⟨hpiece, hall⟩ := utf8_length_of_infix hraw
  refine ⟨?_, by omega⟩
  rintro rfl
  have heq := hall (by omega)
  exact hspecial (heq ▸ hplain (by omega))

/-- **A reserved character blinds the filter**: with the text in the place of a value, it cannot tell an entry
with that very value from one with another value. -/
theorem eval_same_of_special {before after attr text : Str} {f : Filter}
    (hparse : parse (before ++ '(' :: ((attr ++ '=' :: text) ++ ')' :: after)) = some f)
      (hattr : isDescription attr = true)
    (hbefore : Unnamed attr before) (hafter : Unnamed attr after)
    (hspecial : ¬ Plain text) (dn : Str) (others : Str → List Octets) :
    eval exactRules (holding dn attr (utf8 text) others) f =
      eval exactRules (holding dn attr (utf8 text ++ [0]) others) f := by
  have hchars := description_last hattr
  have hfree : ∀ c ∈ attr ++ ['='], isParen c = false := by
    intro c hc
    rcases List.mem_append.1 hc with hc | hc
    · exact isParen_of_description (hchars c hc)
    · rw [List.mem_singleton.1 hc]
      rfl
  apply eval_congr
  intro item hitem
  apply evalItem_twins
  intro hnames value hvalue
  obtain ⟨part, hpart, hread⟩ := texts_of_parse hparse item hitem
  obtain ⟨header, raw, hsplit, hdecode⟩ := asserted_of_parse hread hvalue
  suffices raw <:+: text by
    obtain ⟨hne, hle⟩ := asserted_of_piece this hdecode hspecial
    refine ⟨hne, ?_⟩
    rintro rfl
    simp at hle
  rw [segments, List.splitOnP_append_cons _ _ (by decide), List.splitOnP_append_cons _ _ (by decide), List.mem_append,
    List.mem_append] at hpart
  rcases hpart with hpart | hpart | hpart
  · exact absurd hnames (hbefore part hpart item hread)
  · rw [← segments, show attr ++ '=' :: text = (attr ++ ['=']) ++ text by simp, segments_free_append hfree] at hpart
    obtain ⟨first, more, hfirst⟩ := List.exists_cons_of_ne_nil (List.splitOnP_ne_nil isParen text)
    rw [segments, hfirst, List.modifyHead_cons] at hpart
    rcases List.mem_cons.1 hpart with rfl | hpart
    · -- the part with the attribute: the value is the rest of it
      have hown : splitItem (attr ++ ['='] ++ first) = some (attr, first) := by
        refine splitItem_eq_some.2 ⟨by simp, fun c hc => ?_⟩
        rintro rfl
        cases hchars _ hc
      rw [hown] at hsplit
      cases hsplit
      exact (head_segments hfirst).isInfix
    · -- a part of the text that is an item of its own
      have hpiece : part <:+: text := infix_of_mem_segments
        (by rw [segments, hfirst]; exact List.mem_cons_of_mem _ hpart)
      obtain ⟨hpart_eq, -⟩ := splitItem_eq_some.1 hsplit
      have hsuffix : raw <:+ part := ⟨header ++ ['='], by rw [hpart_eq]; simp⟩
      exact hsuffix.isInfix.trans hpiece
  · exact absurd hnames (hafter part hpart item hread)

end LdapFilter
