import SlurmWeb.Lib.Utf8

/-!
# Query strings of URLs

A server that splits a query string at `&`, each parameter at its first `=`, and decodes `%` and two
hexadecimal digits. Everything else is taken as it is.

* `percentDecode_append` — a text before a character that is no hexadecimal digit is decoded on its own.
* `percentDecode_shrinks` — what decoding does to a text: it gets no longer, and loses none of its other characters.
* `parameters_iff` — the parameters are those of the template exactly when no value holds an `&`.
-/

namespace UrlQuery

open Strings

def hexValue (c : Char) : Option Nat :=
  if '0' ≤ c ∧ c ≤ '9' then some (c.toNat - 48)
  else if 'a' ≤ c ∧ c ≤ 'f' then some (c.toNat - 87)
  else if 'A' ≤ c ∧ c ≤ 'F' then some (c.toNat - 55)
  else none

/-- The octets of a text, `none` where a `%` is not followed by two digits. -/
def percentDecode : Str → Option Octets
  | [] => some []
  | '%' :: h :: l :: s =>
    match hexValue h, hexValue l with
    | some high, some low => (percentDecode s).map (UInt8.ofNat (16 * high + low) :: ·)
    | _, _ => none
  | c :: s => if c = '%' then none else (percentDecode s).map (String.utf8EncodeChar c ++ ·)

/-- A parameter: its name and its value. -/
def parameter (part : Str) : Option (Octets × Octets) := do
  let name ← percentDecode (part.takeWhile (· ≠ '='))
  let value ← percentDecode ((part.dropWhile (· ≠ '=')).drop 1)
  some (name, value)

/-- The parameters of a query string. -/
def parameters (query : Str) : Option (List (Octets × Octets)) := (query.splitOn '&').mapM parameter

/-- The path of a URL, and its parameters. -/
def request (url : Str) : Option (Str × List (Octets × Octets)) :=
  (parameters ((url.dropWhile (· ≠ '?')).drop 1)).map (url.takeWhile (· ≠ '?'), ·)

/-! ## Decoding -/

theorem percentDecode_cons {c : Char} (hc : c ≠ '%') (s : Str) :
    percentDecode (c :: s) = (percentDecode s).map (String.utf8EncodeChar c ++ ·) := by
  rw [percentDecode, if_neg hc]
  exact fun _ _ _ h => absurd h hc

theorem percentDecode_percent (h l : Char) (s : Str) : percentDecode ('%' :: h :: l :: s) =
    (hexValue h).bind fun high => (hexValue l).bind fun low =>
      (percentDecode s).map (UInt8.ofNat (16 * high + low) :: ·) := by
  rw [percentDecode]
  cases hexValue h <;> cases hexValue l <;> rfl

theorem percentDecode_free {s : Str} (h : '%' ∉ s) (t : Str) :
    percentDecode (s ++ t) = (percentDecode t).map (utf8 s ++ ·) := by
  induction s with
  | nil => simp
  | cons c s ih =>
    rw [List.mem_cons, not_or] at h
    rw [List.cons_append, percentDecode_cons (Ne.symm h.1), ih h.2, Option.map_map]
    simp [Function.comp_def]

/-- A text before a character that is no hexadecimal digit is decoded on its own. -/
theorem percentDecode_append {q : Char} (hq : hexValue q = none) (hne : q ≠ '%') (t : Str) : ∀ s : Str,
    percentDecode (s ++ q :: t) =
      (percentDecode s).bind fun a => (percentDecode t).map fun b => a ++ (String.utf8EncodeChar q ++ b)
  | [] => by
    rw [List.nil_append, percentDecode_cons hne]
    rfl
  | c :: s => by
    by_cases hc : c = '%'
    · subst hc
      match s with
      | [] => cases t <;> simp [percentDecode, percentDecode_percent, hq]
      | [h] => cases hexValue h <;> simp [percentDecode, percentDecode_percent, hq]
      | h :: l :: s =>
        rw [List.cons_append, List.cons_append, List.cons_append, percentDecode_percent, percentDecode_percent,
          percentDecode_append hq hne t s]
        cases hexValue h <;> cases hexValue l <;> cases percentDecode s <;> cases percentDecode t <;> simp
    · rw [List.cons_append, percentDecode_cons hc, percentDecode_cons hc, percentDecode_append hq hne t s]
      cases percentDecode s <;> cases percentDecode t <;> simp

/-- What decoding does to a text: nothing, or it gets shorter. It keeps the other ASCII characters. -/
theorem percentDecode_shrinks {q : Char} (hq : q.toNat < 128) (hhex : hexValue q = none) (hne : q ≠ '%') :
    ∀ (s : Str) (a : Octets), percentDecode s = some a →
      ((a = utf8 s ∧ '%' ∉ s) ∨ a.length < (utf8 s).length) ∧ s.count q ≤ a.count (octet q)
  | [], a, h => by
    cases h
    simp
  | c :: s, a, h => by
    by_cases hc : c = '%'
    · subst hc
      match s with
      | [] => simp [percentDecode] at h
      | [_] => simp [percentDecode] at h
      | x :: y :: s =>
        rw [percentDecode_percent] at h
        obtain ⟨high, hx, h⟩ := Option.bind_eq_some_iff.1 h
        obtain ⟨low, hy, h⟩ := Option.bind_eq_some_iff.1 h
        obtain ⟨b, hb, rfl⟩ := Option.map_eq_some_iff.1 h
        obtain ⟨hle, hcount⟩ := percentDecode_shrinks hq hhex hne s b hb
        have hlength : b.length ≤ (utf8 s).length := by
          rcases hle with ⟨rfl, -⟩ | hlt
          · exact Nat.le_refl _
          · exact Nat.le_of_lt hlt
        have hxq : x ≠ q := by
          rintro rfl
          rw [hhex] at hx
          cases hx
        have hyq : y ≠ q := by
          rintro rfl
          rw [hhex] at hy
          cases hy
        refine ⟨.inr ?_, ?_⟩
        · simp only [length_utf8_cons, List.length_cons]
          have hpos := And.intro x.utf8Size_pos (And.intro y.utf8Size_pos ('%').utf8Size_pos)
          omega
        · rw [List.count_cons_of_ne hne.symm, List.count_cons_of_ne hxq, List.count_cons_of_ne hyq]
          exact hcount.trans List.count_le_count_cons
    · rw [percentDecode_cons hc] at h
      obtain ⟨b, hb, rfl⟩ := Option.map_eq_some_iff.1 h
      obtain ⟨hle, hcount⟩ := percentDecode_shrinks hq hhex hne s b hb
      refine ⟨?_, ?_⟩
      · rcases hle with ⟨rfl, hfree⟩ | hlt
        · exact .inl ⟨rfl, by simp [Ne.symm hc, hfree]⟩
        · right
          rw [utf8_cons, List.length_append, List.length_append]
          omega
      · rw [List.count_append, count_utf8EncodeChar hq, List.count_cons]
        simp only [beq_iff_eq]
        omega

/-! ## Parameters -/

theorem percentDecode_plain {s : Str} (h : '%' ∉ s) : percentDecode s = some (utf8 s) := by
  have hdecode := percentDecode_free h []
  rw [List.append_nil] at hdecode
  rw [hdecode]
  simp [percentDecode]

theorem parameter_eq {name : Str} (hequal : '=' ∉ name) (hpercent : '%' ∉ name) (value : Str) :
    parameter (name ++ '=' :: value) = (percentDecode value).map (utf8 name, ·) := by
  have hall : ∀ c ∈ name, decide (c ≠ '=') = true := by
    rintro c hc
    simp only [ne_eq, decide_not, Bool.not_eq_true', decide_eq_false_iff_not]
    rintro rfl
    exact hequal hc
  unfold parameter
  rw [List.takeWhile_append_of_pos hall, List.dropWhile_append_of_pos hall]
  simp [Option.map_eq_bind, percentDecode_plain hpercent]

theorem length_of_mapM {α β : Type} {f : α → Option β} : ∀ {l : List α} {out : List β}, l.mapM f = some out →
    l.length = out.length
  | [], _, h => by
    cases h
    rfl
  | a :: l, out, h => by
    rw [List.mapM_cons] at h
    obtain ⟨b, -, h⟩ := Option.bind_eq_some_iff.1 h
    obtain ⟨bs, hbs, h⟩ := Option.bind_eq_some_iff.1 h
    cases h
    rw [List.length_cons, List.length_cons, length_of_mapM hbs]

theorem length_splitOn (s : Str) (c : Char) : (s.splitOn c).length = s.count c + 1 := by
  induction s with
  | nil => rfl
  | cons d s ih =>
    rw [List.splitOn_cons_eq_if_modifyHead, List.count_cons]
    split
    · rw [List.length_cons, ih]
    · rw [List.length_modifyHead, ih]

/-- A parameter as it stands in a query string. -/
def written (p : Str × Str) : Str := p.1 ++ '=' :: p.2

/-- A name or a value that is read as it is written. -/
def Free (s : Str) : Prop := '&' ∉ s ∧ '=' ∉ s ∧ '%' ∉ s

instance (s : Str) : Decidable (Free s) := inferInstanceAs (Decidable (_ ∧ _ ∧ _))

theorem Free.append {s t : Str} (hs : Free s) (ht : Free t) : Free (s ++ t) := by
  simp [Free, hs.1, hs.2.1, hs.2.2, ht.1, ht.2.1, ht.2.2]

/-- Parameters after a first one. -/
def more (rest : List (Str × Str)) : Str := (rest.map fun p => '&' :: written p).flatten

theorem splitOn_more {part : Str} (hpart : '&' ∉ part) : ∀ {rest : List (Str × Str)},
    (∀ p ∈ rest, Free p.1 ∧ Free p.2) → (part ++ more rest).splitOn '&' = part :: rest.map written
  | [], _ => by
    rw [more, List.map_nil, List.flatten_nil, List.append_nil, List.map_nil]
    exact List.splitOn_eq_singleton hpart
  | p :: rest, h => by
    obtain ⟨hname, hvalue⟩ := h p List.mem_cons_self
    have hwritten : '&' ∉ written p := by
      simp [written, hname.1, hvalue.1]
    have hmore := splitOn_more hwritten fun q hq => h q (List.mem_cons_of_mem _ hq)
    rw [more, List.map_cons, List.flatten_cons, List.cons_append, ← more,
      List.splitOn_append_cons_self_of_not_mem hpart, hmore, List.map_cons]

theorem count_more {rest : List (Str × Str)} (h : ∀ p ∈ rest, Free p.1 ∧ Free p.2) :
    (more rest).count '&' = rest.length := by
  have hsplit := congrArg List.length (@splitOn_more [] (by simp) _ h)
  rw [List.nil_append, length_splitOn, List.length_cons, List.length_map] at hsplit
  exact Nat.succ.inj hsplit

/-- **The parameters are the intended ones** exactly when the first value holds no `&`. -/
theorem parameters_iff {name : Str} (hname : Free name) {rest : List (Str × Str)}
    (hrest : ∀ p ∈ rest, Free p.1 ∧ Free p.2) {value : Str} {text : Octets} :
    parameters (written (name, value) ++ more rest) = some ((utf8 name, text) :: rest.map fun p =>
      (utf8 p.1, utf8 p.2)) ↔ '&' ∉ value ∧ percentDecode value = some text := by
  have hothers : (rest.map written).mapM parameter = some (rest.map fun p => (utf8 p.1, utf8 p.2)) := by
    induction rest with
    | nil => rfl
    | cons p rest ih =>
      obtain ⟨hname, hvalue⟩ := hrest p List.mem_cons_self
      rw [List.map_cons, List.mapM_cons, ih fun q hq => hrest q (List.mem_cons_of_mem _ hq), written,
        parameter_eq hname.2.1 hname.2.2, percentDecode_plain hvalue.2.2]
      rfl
  have hread : '&' ∉ value → parameters (written (name, value) ++ more rest) =
      (percentDecode value).map fun text => (utf8 name, text) :: rest.map fun p => (utf8 p.1, utf8 p.2) := by
    intro hvalue
    have hpart : '&' ∉ written (name, value) := by simp [written, hname.1, hvalue]
    rw [parameters, splitOn_more hpart hrest, List.mapM_cons, hothers, written, parameter_eq hname.2.1 hname.2.2]
    cases percentDecode value <;> rfl
  constructor
  · intro h
    have hvalue : '&' ∉ value := by
      have hlength := length_of_mapM h
      have hwritten : (written (name, value)).count '&' = name.count '&' + value.count '&' := by
        rw [written, List.count_append, List.count_cons_of_ne (by decide)]
      rw [length_splitOn, List.count_append, count_more hrest, List.length_cons, List.length_map, hwritten] at hlength
      rw [← List.count_eq_zero]
      omega
    rw [hread hvalue] at h
    obtain ⟨text', hdecode, heq⟩ := Option.map_eq_some_iff.1 h
    rw [hdecode, (Prod.mk.inj (List.cons.inj heq).1).2]
    exact ⟨hvalue, rfl⟩
  · rintro ⟨hvalue, hdecode⟩
    rw [hread hvalue, hdecode]
    rfl

theorem request_eq {path : Str} (h : '?' ∉ path) (query : Str) :
    request (path ++ '?' :: query) = (parameters query).map (path, ·) := by
  have hall : ∀ c ∈ path, decide (c ≠ '?') = true := by
    rintro c hc
    simp only [ne_eq, decide_not, Bool.not_eq_true', decide_eq_false_iff_not]
    rintro rfl
    exact h hc
  unfold request
  rw [List.takeWhile_append_of_pos hall, List.dropWhile_append_of_pos hall]
  simp

end UrlQuery
