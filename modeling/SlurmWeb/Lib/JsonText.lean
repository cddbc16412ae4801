import SlurmWeb.Lib.Json

/-!
# Texts of JSON values

What `json.loads` makes of a text is bounded by the text, and a text that `json.dumps` wrote is read back.

| here | there |
| --- | --- |
| `escape`, `quote` | `py_encode_basestring_ascii` (json/encoder.py) |
| `dumps` | `json.dumps` with its defaults |

* `loads_str_length` — a string that is read is shorter than its text.
* `loads_dumps` — what was written is read back, where its numbers are and it is not too deep.
-/

namespace Py.Json

open Strings

variable {F : Type}

/-! ## Lengths -/

theorem decodePoints_length : ∀ points : List Nat, (decodePoints points).length ≤ points.length
  | [] => le_rfl
  | [_] => le_rfl
  | high :: low :: rest => by
    have hpair := decodePoints_length rest
    have hsingle := decodePoints_length (low :: rest)
    rw [decodePoints]
    split
    · simp only [List.length_cons] at hpair ⊢
      omega
    · simp only [List.length_cons] at hsingle ⊢
      omega

/-- What a machine that has read `n` code points holds: a text outside of lists and objects is shorter than that. -/
def Bounded (n : Nat) (s : State F) : Prop :=
  match s.mode with
  | .string points => points.length + 1 ≤ n
  | .escape points => points.length + 2 ≤ n
  | .unicode points _ => points.length + 3 ≤ n
  | .word _ (.str _) => False
  | .done (.str text) => text.length + 2 ≤ n
  | _ => True

theorem Bounded.mono {n m : Nat} {s : State F} (h : Bounded n s) (hle : n ≤ m) : Bounded m s := by
  obtain ⟨stack, mode⟩ := s
  cases mode with
  | string points => exact le_trans h hle
  | escape points => exact le_trans h hle
  | unicode points digits => exact le_trans h hle
  | word rest value => cases value <;> exact h
  | done value => cases value <;> first | exact le_trans h hle | trivial
  | _ => trivial

theorem deliver_bounded {n : Nat} {value : Value F} (hvalue : ∀ text, value = .str text → text.length + 2 ≤ n)
    (stack : List (Frame F)) : Bounded n (deliver value stack) := by
  cases stack with
  | nil => cases value <;> first | exact hvalue _ rfl | trivial
  | cons frame stack => cases frame <;> trivial

theorem closeString_bounded {n : Nat} {text : Str} (h : text.length + 2 ≤ n) (stack : List (Frame F)) :
    Bounded n (closeString text stack) := by
  unfold closeString
  split
  · trivial
  · refine deliver_bounded (fun text' htext => ?_) _
    cases htext
    exact h

theorem feedAfter_bounded {n : Nat} {s s' : State F} {c : Char} (hs : Bounded n s) (h : feedAfter s c = .ok s') :
    Bounded (n + 1) s' := by
  unfold feedAfter at h
  split at h
  · cases h
    exact hs.mono (Nat.le_succ n)
  · split at h
    · split_ifs at h <;> cases h
      · trivial
      · exact deliver_bounded (fun _ htext => by cases htext) _
    · split_ifs at h <;> cases h
      · trivial
      · exact deliver_bounded (fun _ htext => by cases htext) _
    · cases h

variable [Python F]

theorem number_not_str {text : Str} {value : Value F} (h : number text = .ok value) : ∀ t, value ≠ .str t := by
  rintro t rfl
  unfold number at h
  dsimp only at h
  split at h
  · cases h
  · split at h
    · split at h
      · cases h
        rename_i hvalue
        split at hvalue
        · obtain ⟨n, -, hn⟩ := Option.map_eq_some_iff.1 hvalue
          cases hn
        · obtain ⟨x, -, hx⟩ := Option.map_eq_some_iff.1 hvalue
          cases hx
      · cases h
    · cases h

theorem begin_bounded {n limit : Nat} {stack : List (Frame F)} {s' : State F} {c : Char}
    (h : begin limit stack c = .ok s') : Bounded (n + 1) s' := by
  have henter : ∀ s : State F, Bounded (n + 1) s → enter limit stack s = .ok s' → Bounded (n + 1) s' := by
    intro s hs henter
    unfold enter at henter
    split at henter
    · cases henter
      exact hs
    · cases henter
  have hconstant : ∀ rest text, constant stack rest text = .ok s' → Bounded (n + 1) s' := by
    intro rest text hconstant
    unfold constant at hconstant
    split at hconstant
    · cases hconstant
      trivial
    · cases hconstant
  unfold begin at h
  split at h
  · cases h
    show 0 + 1 ≤ n + 1
    omega
  · refine henter _ ?_ h
    trivial
  · refine henter _ ?_ h
    trivial
  · cases h
    trivial
  · cases h
    trivial
  · cases h
    trivial
  · exact hconstant _ _ h
  · exact hconstant _ _ h
  · split at h
    · cases h
      trivial
    · cases h

theorem feed_bounded {n limit : Nat} {s s' : State F} {c : Char} (hs : Bounded n s) (h : feed limit s c = .ok s') :
    Bounded (n + 1) s' := by
  have hsame : ∀ {stack : List (Frame F)} {mode : Mode F}, Bounded n ⟨stack, mode⟩ →
      Bounded (n + 1) (⟨stack, mode⟩ : State F) :=
    fun h => h.mono (Nat.le_succ n)
  obtain ⟨stack, mode⟩ := s
  unfold feed at h
  cases mode with
  | string points =>
    have hpoints : points.length + 1 ≤ n := hs
    dsimp only [feedString] at h
    split_ifs at h <;> cases h
    · refine closeString_bounded ?_ _
      have := decodePoints_length points
      omega
    · show points.length + 2 ≤ n + 1
      omega
    · show (points ++ [c.toNat]).length + 1 ≤ n + 1
      rw [List.length_append, List.length_singleton]
      omega
  | escape points =>
    have hpoints : points.length + 2 ≤ n := hs
    dsimp only [feedEscape] at h
    split at h
    · cases h
      show points.length + 3 ≤ n + 1
      omega
    · split at h
      next point _ =>
        cases h
        show (points ++ [point]).length + 1 ≤ n + 1
        rw [List.length_append, List.length_singleton]
        omega
      · cases h
  | unicode points digits =>
    have hpoints : points.length + 3 ≤ n := hs
    dsimp only [feedUnicode] at h
    split_ifs at h <;> cases h
    · show points.length + 3 ≤ n + 1
      omega
    · show (points ++ [hexValue (digits ++ [c])]).length + 1 ≤ n + 1
      rw [List.length_append, List.length_singleton]
      omega
  | number text =>
    dsimp only [feedNumber] at h
    split_ifs at h
    · cases h
      trivial
    · unfold constant at h
      split at h <;> cases h
      trivial
    · obtain ⟨value, hvalue, h⟩ := Except.bind_eq_ok.1 h
      exact feedAfter_bounded (deliver_bounded (fun text htext => absurd htext (number_not_str hvalue text)) stack) h
  | word rest value =>
    have hvalue : ∀ text, value ≠ .str text := by
      rintro text rfl
      exact hs
    have hdeliver : ∀ n, Bounded n (deliver value stack) := fun n =>
      deliver_bounded (fun text htext => absurd htext (hvalue text)) stack
    dsimp only at h
    cases rest with
    | nil => exact feedAfter_bounded (hdeliver n) h
    | cons expected rest =>
      rw [feedWord] at h
      split_ifs at h <;> cases h
      · exact hdeliver _
      · cases value <;> first | exact absurd rfl (hvalue _) | trivial
  | value =>
    dsimp only at h
    split_ifs at h
    · cases h
      trivial
    · exact begin_bounded h
  | valueOrEnd =>
    dsimp only at h
    split_ifs at h
    · cases h
      trivial
    · exact feedAfter_bounded hs h
    · exact begin_bounded h
  | key =>
    dsimp only at h
    split_ifs at h <;> cases h
    · trivial
    · show 0 + 1 ≤ n + 1
      omega
  | keyOrEnd =>
    dsimp only at h
    split_ifs at h
    · cases h
      trivial
    · cases h
      show 0 + 1 ≤ n + 1
      omega
    · exact feedAfter_bounded hs h
  | colon =>
    dsimp only at h
    split_ifs at h <;> cases h <;> trivial
  | after => exact feedAfter_bounded hs h
  | done value => exact feedAfter_bounded hs h

theorem run_bounded {limit : Nat} : ∀ {text : Str} {n : Nat} {s s' : State F}, Bounded n s → run limit s text = .ok s' →
    Bounded (n + text.length) s'
  | [], _, _, _, hs, h => by
    cases h
    exact hs
  | c :: text, n, s, s', hs, h => by
    rw [run, List.foldlM_cons] at h
    obtain ⟨s₁, hfeed, hrun⟩ := Except.bind_eq_ok.1 h
    have hrest := run_bounded (feed_bounded hs hfeed) hrun
    rwa [Nat.add_assoc, Nat.add_comm 1] at hrest

/-- **A string that is read is shorter than its text.** -/
theorem loads_str_length {limit : Nat} {text s : Str}
    (h : (loads limit text : Except LoadsError (Value F)) = .ok (.str s)) :
    s.length + 2 ≤ text.length := by
  obtain ⟨final, hrun, hfinish⟩ := Except.bind_eq_ok.1 h
  have hfinal := @run_bounded F _ limit text 0 start final trivial hrun
  rw [Nat.zero_add] at hfinal
  have hresult : ∀ final : State F, Bounded text.length final → result final = .ok (.str s) →
      s.length + 2 ≤ text.length := by
    intro final hfinal hresult
    obtain ⟨stack, mode⟩ := final
    cases mode with
    | done value =>
      cases hresult
      exact hfinal
    | _ => cases hresult
  unfold finish at hfinish
  split at hfinish
  next digits _ =>
    obtain ⟨value, hvalue, hfinish⟩ := Except.bind_eq_ok.1 hfinish
    exact hresult _ (deliver_bounded (fun t ht => absurd ht (number_not_str hvalue t)) _) hfinish
  · exact hresult _ hfinal hfinish

/-! ## Writing -/

def hexChar (n : Nat) : Char := if n < 10 then Char.ofNat (48 + n) else Char.ofNat (87 + n)

/-- `'\\u{0:04x}'` -/
def unicodeEscape (n : Nat) : Str :=
  ['\\', 'u', hexChar (n / 4096 % 16), hexChar (n / 256 % 16), hexChar (n / 16 % 16), hexChar (n % 16)]

/-- The code units of UTF-16. -/
def units (c : Char) : List Nat :=
  if c.toNat < 0x10000 then [c.toNat] else [0xD800 + (c.toNat - 0x10000) / 0x400, 0xDC00 + (c.toNat - 0x10000) % 0x400]

def shortEscape (n : Nat) : Option Char :=
  match n with
  | 34 => some '"'
  | 92 => some '\\'
  | 10 => some 'n'
  | 13 => some 'r'
  | 9 => some 't'
  | 12 => some 'f'
  | 8 => some 'b'
  | _ => none

def escape (c : Char) : Str :=
  match shortEscape c.toNat with
  | some e => ['\\', e]
  | none => if 32 ≤ c.toNat ∧ c.toNat ≤ 126 then [c] else (units c).flatMap unicodeEscape

def quote (s : Str) : Str := '"' :: (s.flatMap escape ++ ['"'])

section
-- `float.__repr__`
variable (repr : F → Str)

/-- `floatstr` -/
def floatText (x : F) : Str :=
  let text := repr x
  if text = "nan".toList then "NaN" else if text = "inf".toList then "Infinity" else if text = "-inf".toList then
    "-Infinity" else text

mutual

/-- `json.dumps(v)` -/
def dumps : Value F → Str
  | .none => "null"
  | .bool b => if b then "true" else "false"
  | .int n => (toString n).toList
  | .float x => floatText repr x
  | .str s => quote s
  | .list items => '[' :: (", ".toList.intercalate (dumpsItems items) ++ [']'])
  | .dict items => '{' :: (", ".toList.intercalate (dumpsFields items) ++ ['}'])

def dumpsItems : List (Value F) → List Str
  | [] => []
  | value :: values => dumps value :: dumpsItems values

def dumpsFields : List (Str × Value F) → List Str
  | [] => []
  | item :: items => dumpsField item :: dumpsFields items

def dumpsField : Str × Value F → Str
  | (key, value) => quote key ++ ':' :: ' ' :: dumps value

end

end

/-- A text the scanner reads as a number to its end. -/
structure Numeral (text : Str) (value : Value F) : Prop where
  read : number text = .ok value
  head : ∃ c rest, text = c :: rest ∧ (c.isDigit || c == '-') = true
  all : ∀ c ∈ text, isNumberChar c = true

section
variable (repr : F → Str)

mutual

/-- Numbers are read back, keys are distinct, and lists and objects are at most `depth` deep. -/
def Legible (depth : Nat) : Value F → Prop
  | .none => True
  | .bool _ => True
  | .int n => Python.intOfStr F (toString n).toList = some n
  | .float x => Numeral (floatText repr x) (.float x)
  | .str _ => True
  | .list items => 0 < depth ∧ LegibleItems (depth - 1) items
  | .dict items => 0 < depth ∧ (items.map Prod.fst).Nodup ∧ LegibleFields (depth - 1) items

def LegibleItems (depth : Nat) : List (Value F) → Prop
  | [] => True
  | value :: values => Legible depth value ∧ LegibleItems depth values

def LegibleFields (depth : Nat) : List (Str × Value F) → Prop
  | [] => True
  | item :: items => LegibleField depth item ∧ LegibleFields depth items

def LegibleField (depth : Nat) : Str × Value F → Prop
  | (_, value) => Legible depth value

end

end

/-! ## Strings -/

omit [Python F] in
theorem units_spec (c : Char) : ∀ rest, decodePoints (units c ++ rest) = c :: decodePoints rest := by
  intro rest
  have hself : Char.ofNat c.toNat = c := Char.ofNat_toNat c
  have hvalid : c.toNat < 0xD800 ∨ 0xDFFF < c.toNat ∧ c.toNat < 0x110000 := c.valid
  unfold units
  split
  · have hhigh : isHigh c.toNat = false := by
      simp only [isHigh, Bool.and_eq_false_iff, decide_eq_false_iff_not]
      omega
    have hlow : isLow c.toNat = false := by
      simp only [isLow, Bool.and_eq_false_iff, decide_eq_false_iff_not]
      omega
    cases rest with
    | nil => simp [decodePoints, hhigh, hlow, hself]
    | cons low rest => simp [decodePoints, hhigh, hlow, hself]
  · have hhigh : isHigh (0xD800 + (c.toNat - 0x10000) / 0x400) = true := by
      simp only [isHigh, Bool.and_eq_true, decide_eq_true_eq]
      omega
    have hlow : isLow (0xDC00 + (c.toNat - 0x10000) % 0x400) = true := by
      simp only [isLow, Bool.and_eq_true, decide_eq_true_eq]
      omega
    have hpoint : 0x10000 + (0xD800 + (c.toNat - 0x10000) / 0x400 - 0xD800) * 0x400 +
        (0xDC00 + (c.toNat - 0x10000) % 0x400 - 0xDC00) = c.toNat := by omega
    rw [List.cons_append, List.cons_append, List.nil_append, decodePoints, hhigh, hlow, hpoint, hself]
    rfl

omit [Python F] in
theorem decodePoints_units : ∀ s : Str, decodePoints (s.flatMap units) = s
  | [] => rfl
  | c :: s => by rw [List.flatMap_cons, units_spec, decodePoints_units s]

theorem run_cons (limit : Nat) (s : State F) (c : Char) (text : Str) :
    run limit s (c :: text) = feed limit s c >>= fun s' => run limit s' text := List.foldlM_cons

theorem run_step {limit : Nat} {s : State F} {c : Char} (s' : State F) (h : feed limit s c = .ok s') (text : Str) :
    run limit s (c :: text) = run limit s' text := by
  rw [run_cons, h]
  rfl

omit [Python F] in
theorem hexChar_spec : ∀ n < 16, hexDigit (hexChar n) = some n := by decide

theorem run_unicodeEscape (limit : Nat) (stack : List (Frame F)) (points : List Nat) {n : Nat}
    (hn : n < 0x10000) (rest : Str) :
    run limit ⟨stack, .string points⟩ (unicodeEscape n ++ rest) = run limit ⟨stack, .string (points ++ [n])⟩ rest := by
  have hstep : ∀ (digits : Str) (k : Nat), k < 16 → digits.length < 3 →
      feed limit ⟨stack, .unicode points digits⟩ (hexChar k) =
        .ok ⟨stack, .unicode points (digits ++ [hexChar k])⟩ := by
    intro digits k hk hdigits
    simp [feed, feedUnicode, hexChar_spec k hk, hdigits]
  have hlast : ∀ (digits : Str) (k : Nat), k < 16 → ¬ digits.length < 3 →
      feed limit ⟨stack, .unicode points digits⟩ (hexChar k) =
        .ok ⟨stack, .string (points ++ [hexValue (digits ++ [hexChar k])])⟩ := by
    intro digits k hk hdigits
    simp [feed, feedUnicode, hexChar_spec k hk, hdigits]
  have hvalue : hexValue [hexChar (n / 4096 % 16), hexChar (n / 256 % 16), hexChar (n / 16 % 16),
      hexChar (n % 16)] = n := by
    simp only [hexValue, List.foldl_cons, List.foldl_nil,
      hexChar_spec _ (Nat.mod_lt _ (by decide : 16 > 0)), Option.getD_some]
    omega
  have hmod : ∀ m, m % 16 < 16 := fun m => Nat.mod_lt _ (by decide)
  rw [unicodeEscape, List.cons_append, run_step ⟨stack, .escape points⟩ rfl, List.cons_append,
    run_step ⟨stack, .unicode points []⟩ rfl, List.cons_append,
      run_step _ (hstep _ _ (hmod _) (by simp)), List.cons_append,
    run_step _ (hstep _ _ (hmod _) (by simp)), List.cons_append,
      run_step _ (hstep _ _ (hmod _) (by simp)), List.cons_append,
    run_step _ (hlast _ _ (hmod _) (by simp))]
  simp only [List.nil_append, List.cons_append, hvalue]

theorem run_escape (limit : Nat) (stack : List (Frame F)) (points : List Nat) (c : Char) (rest : Str) :
    run limit ⟨stack, .string points⟩ (escape c ++ rest) = run limit ⟨stack, .string (points ++ units c)⟩ rest := by
  have hlarge : ¬ c.toNat < 0x10000 → c.toNat < 0x110000 := fun _ => by
    have hvalid : c.toNat < 0xD800 ∨ 0xDFFF < c.toNat ∧ c.toNat < 0x110000 := c.valid
    omega
  unfold escape
  split
  next e he =>
    have hshort : unescape e = some c.toNat ∧ e ≠ 'u' ∧ c.toNat < 0x10000 := by
      unfold shortEscape at he
      split at he <;> cases he <;> simp_all [unescape]
    have hunits : units c = [c.toNat] := if_pos hshort.2.2
    have hfeed : feed limit ⟨stack, .escape points⟩ e = .ok ⟨stack, .string (points ++ [c.toNat])⟩ := by
      show feedEscape stack points e = _
      rw [feedEscape, if_neg hshort.2.1, hshort.1]
    rw [List.cons_append, run_step ⟨stack, .escape points⟩ rfl, List.cons_append, run_step _ hfeed, hunits]
    rfl
  next hnone =>
    split
    next hplain =>
      have hunits : units c = [c.toNat] := if_pos (by omega)
      have hquote : c ≠ '"' := by
        rintro rfl
        cases hnone
      have hslash : c ≠ '\\' := by
        rintro rfl
        cases hnone
      have hfeed : feed limit ⟨stack, .string points⟩ c = .ok ⟨stack, .string (points ++ [c.toNat])⟩ := by
        show feedString stack points c = _
        rw [feedString, if_neg hquote, if_neg hslash, if_neg (by omega)]
      rw [List.cons_append, run_step _ hfeed, hunits]
      rfl
    next hplain =>
      unfold units
      split
      next hsmall => rw [List.flatMap_cons, List.flatMap_nil, List.append_nil, run_unicodeEscape _ _ _ hsmall]
      next hbig =>
        have hpoint := hlarge hbig
        rw [List.flatMap_cons, List.flatMap_cons, List.flatMap_nil, List.append_nil, List.append_assoc,
          run_unicodeEscape _ _ _ (by omega), run_unicodeEscape _ _ _ (by omega), List.append_assoc]
        rfl

theorem run_escapes (limit : Nat) (stack : List (Frame F)) : ∀ (s : Str) (points : List Nat) (rest : Str),
    run limit ⟨stack, .string points⟩ (s.flatMap escape ++ rest) =
      run limit ⟨stack, .string (points ++ s.flatMap units)⟩ rest
  | [], points, rest => by simp
  | c :: s, points, rest => by
    rw [List.flatMap_cons, List.append_assoc, run_escape, run_escapes limit stack s,
      List.flatMap_cons, List.append_assoc]

/-- A quoted text is read as what was quoted. -/
theorem run_quoted (limit : Nat) (stack : List (Frame F)) (s rest : Str) :
    run limit ⟨stack, .string []⟩ (s.flatMap escape ++ '"' :: rest) = run limit (closeString s stack) rest := by
  have hfeed : feed limit ⟨stack, .string (s.flatMap units)⟩ '"' = .ok (closeString s stack) := by
    show feedString stack _ '"' = _
    rw [feedString, if_pos rfl, decodePoints_units]
  rw [run_escapes, List.nil_append, run_step _ hfeed]

/-! ## Numbers -/

omit [Python F] in
theorem toDigits_head : ∀ n : Nat, 0 < n → ∃ c rest, Nat.toDigits 10 n = c :: rest ∧ c ≠ '0'
  | n, hn => by
    by_cases hsmall : n < 10
    · refine ⟨n.digitChar, [], Nat.toDigits_of_lt_base hsmall, ?_⟩
      interval_cases n <;> decide
    · obtain ⟨c, rest, hdigits, hc⟩ := toDigits_head (n / 10) (by omega)
      rw [Nat.toDigits_of_base_le (by decide) (by omega), hdigits]
      exact ⟨c, rest ++ [(n % 10).digitChar], rfl, hc⟩
termination_by n => n

omit [Python F] in
theorem unsigned_toDigits (n : Nat) : unsigned (Nat.toDigits 10 n) = some (Nat.toDigits 10 n, []) := by
  have hdigits : ∀ c ∈ Nat.toDigits 10 n, c.isDigit = true := fun c hc =>
    Nat.isDigit_of_mem_toDigits (by decide) (by decide) hc
  rcases Nat.eq_zero_or_pos n with rfl | hpos
  · rw [Nat.toDigits_zero]
    rfl
  · obtain ⟨c, rest, htext, hc⟩ := toDigits_head n hpos
    rw [htext] at hdigits ⊢
    have hrest : ∀ d ∈ rest, d.isDigit = true := fun d hd => hdigits d (List.mem_cons_of_mem _ hd)
    unfold unsigned
    split
    next heq => exact absurd (List.cons.inj heq).1 hc
    next heq =>
      obtain ⟨rfl, rfl⟩ := List.cons.inj heq
      rw [if_pos (hdigits _ List.mem_cons_self), List.takeWhile_eq_self_iff.2 hrest, List.dropWhile_eq_nil_iff.2 hrest]
    next heq => cases heq

omit [Python F] in
/-- The text of an integer is digits, or a sign and digits. -/
theorem int_text_cases (n : Int) : (∃ m, (toString n).toList = Nat.toDigits 10 m) ∨
    ∃ m, (toString n).toList = '-' :: Nat.toDigits 10 m := by
  cases n with
  | ofNat m => exact .inl ⟨m, Nat.toList_repr⟩
  | negSucc m =>
    refine .inr ⟨m + 1, ?_⟩
    show ("-" ++ (m + 1).repr).toList = _
    rw [String.toList_append, Nat.toList_repr]
    rfl

omit [Python F] in
theorem integer_text (n : Int) : integer (toString n).toList = some ((toString n).toList, []) := by
  rcases int_text_cases n with ⟨m, htext⟩ | ⟨m, htext⟩
  · rw [htext]
    unfold integer
    split
    next rest heq =>
      have hdigit := Nat.isDigit_of_mem_toDigits (by decide) (by decide)
        (heq ▸ List.mem_cons_self : '-' ∈ Nat.toDigits 10 m)
      cases hdigit
    · exact unsigned_toDigits m
  · rw [htext, integer, unsigned_toDigits]
    rfl

omit [Python F] in
theorem int_chars (n : Int) : (∃ c rest, (toString n).toList = c :: rest ∧ (c.isDigit || c == '-') = true) ∧
    ∀ c ∈ (toString n).toList, isNumberChar c = true := by
  have hchars : ∀ c ∈ (toString n).toList, (c.isDigit || c == '-') = true := fun c hc => by
    rcases mem_int_text hc with hdigit | rfl
    · rw [hdigit]
      rfl
    · rfl
  refine ⟨?_, fun c hc => ?_⟩
  · cases htext : (toString n).toList with
    | nil =>
      have hread := integer_text n
      rw [htext] at hread
      cases hread
    | cons c rest => exact ⟨c, rest, rfl, hchars c (htext ▸ List.mem_cons_self)⟩
  · have := hchars c hc
    simp only [Bool.or_eq_true] at this
    simp only [isNumberChar, Bool.or_eq_true]
    tauto

/-- The text of an integer is read by `int`. -/
theorem number_int (n : Int) : number (toString n).toList = match Python.intOfStr F (toString n).toList with
    | some m => (.ok (.int m) : Except LoadsError (Value F))
    | none => .error .value := by
  unfold number
  rw [integer_text]
  dsimp only [fraction, exponent]
  rw [if_pos ⟨rfl, rfl⟩]
  cases Python.intOfStr F (toString n).toList <;> rfl

theorem numeral_int {n : Int} (h : Python.intOfStr F (toString n).toList = some n) :
    Numeral (toString n).toList (.int n : Value F) :=
  ⟨by rw [number_int, h], (int_chars n).1, (int_chars n).2⟩

/-- What may stand behind a value. -/
def Follows (rest : Str) : Prop := ∀ c ∈ rest.head?, isNumberChar c = false ∧ c ≠ 'I'

omit [Python F] in
theorem deliver_mode (value : Value F) (stack : List (Frame F)) :
    (deliver value stack).mode = .after ∨ ∃ whole, (deliver value stack).mode = .done whole := by
  cases stack with
  | nil => exact .inr ⟨value, rfl⟩
  | cons frame stack => cases frame <;> exact .inl rfl

theorem feed_deliver (limit : Nat) (value : Value F) (stack : List (Frame F)) (c : Char) :
    feed limit (deliver value stack) c = feedAfter (deliver value stack) c := by
  rw [feed]
  rcases deliver_mode value stack with hmode | ⟨whole, hmode⟩ <;> rw [hmode]

theorem finish_deliver (value : Value F) (stack : List (Frame F)) :
    finish (deliver value stack) = result (deliver value stack) := by
  rw [finish]
  rcases deliver_mode value stack with hmode | ⟨whole, hmode⟩ <;> rw [hmode]

/-- A text of number characters is collected before it is read. -/
theorem run_numberChars {limit : Nat} {text : Str} (hhead : ∃ c rest, text = c :: rest ∧ (c.isDigit || c == '-') = true)
    (hall : ∀ c ∈ text, isNumberChar c = true) (stack : List (Frame F)) (rest : Str) :
    run limit ⟨stack, .value⟩ (text ++ rest) = run limit ⟨stack, .number text⟩ rest := by
  obtain ⟨c, tail, rfl, hc⟩ := hhead
  have hbegin : feed limit ⟨stack, .value⟩ c = .ok ⟨stack, .number [c]⟩ := by
    have hspace : isWhitespace c = false := by
      rw [Bool.eq_false_iff]
      intro hspace
      simp only [isWhitespace, Bool.or_eq_true, beq_iff_eq] at hspace
      rcases hspace with ((rfl | rfl) | rfl) | rfl <;> cases hc
    show (if isWhitespace c then _ else begin limit stack c) = _
    rw [hspace, if_neg Bool.false_ne_true]
    unfold begin
    split <;> first | cases hc | exact if_pos hc
  have hnumber : ∀ (tail seen : Str), (∀ d ∈ tail, isNumberChar d = true) →
      run limit ⟨stack, .number seen⟩ (tail ++ rest) = run limit ⟨stack, .number (seen ++ tail)⟩ rest := by
    intro tail
    induction tail with
    | nil => simp
    | cons d tail ih =>
      intro seen htail
      have hfeed : feed limit ⟨stack, .number seen⟩ d = .ok ⟨stack, .number (seen ++ [d])⟩ := by
        show feedNumber stack seen d = _
        rw [feedNumber, if_pos (htail d List.mem_cons_self)]
      rw [List.cons_append, run_step _ hfeed, ih _ fun e he => htail e (List.mem_cons_of_mem _ he), List.append_assoc]
      rfl
  rw [List.cons_append, run_step _ hbegin, hnumber tail [c] fun d hd => hall d (List.mem_cons_of_mem _ hd),
    List.singleton_append]

/-- A number ends where no number goes on. -/
theorem run_numeral {limit : Nat} {text : Str} {value : Value F} (h : Numeral text value)
    (stack : List (Frame F)) {rest : Str}
    (hrest : Follows rest) : (run limit ⟨stack, .value⟩ (text ++ rest) >>= finish) =
      (run limit (deliver value stack) rest >>= finish) := by
  rw [run_numberChars h.head h.all]
  cases rest with
  | nil =>
    show finish ⟨stack, .number text⟩ = finish (deliver value stack)
    rw [finish_deliver, finish]
    dsimp only
    rw [h.read]
    rfl
  | cons d rest =>
    obtain ⟨hd, hne⟩ := hrest d rfl
    have hfeed : feed limit ⟨stack, .number text⟩ d = feed limit (deliver value stack) d := by
      show feedNumber stack text d = _
      rw [feed_deliver, feedNumber, hd, if_neg Bool.false_ne_true, if_neg fun h => hne h.2, h.read]
      rfl
    rw [run_cons, run_cons, hfeed]

theorem loads_int (limit : Nat) (n : Int) :
    loads limit (toString n).toList = match Python.intOfStr F (toString n).toList with
    | some m => (.ok (.int m) : Except LoadsError (Value F))
    | none => .error .value := by
  obtain ⟨hhead, hall⟩ := int_chars n
  have hrun := @run_numberChars F _ limit _ hhead hall [] []
  rw [List.append_nil] at hrun
  rw [loads, start, hrun]
  show finish ⟨[], .number (toString n).toList⟩ = _
  rw [finish]
  dsimp only
  rw [number_int]
  cases Python.intOfStr F (toString n).toList <;> rfl

/-- Behind an integer only whitespace may follow. -/
theorem loads_int_append (limit : Nat) (n : Int) {c : Char} (hc : isNumberChar c = false ∧ c ≠ 'I')
    (hspace : isWhitespace c = false)
    (rest : Str) : ∃ e, e ≠ .recursion ∧ loads limit ((toString n).toList ++ c :: rest) =
      (.error e : Except LoadsError (Value F)) := by
  obtain ⟨hhead, hall⟩ := int_chars n
  have hfeed : feed limit ⟨[], .number (toString n).toList⟩ c =
      (number (toString n).toList >>= fun value : Value F => feedAfter (deliver value []) c) := by
    show feedNumber [] (toString n).toList c = _
    rw [feedNumber, hc.1, if_neg Bool.false_ne_true, if_neg fun h => hc.2 h.2]
  have hafter : ∀ value : Value F, feedAfter (deliver value []) c = .error .decode := by
    intro value
    rw [feedAfter, hspace, if_neg Bool.false_ne_true]
    rfl
  rw [loads, start, run_numberChars hhead hall, run_cons, hfeed, number_int]
  cases Python.intOfStr F (toString n).toList with
  | none => exact ⟨.value, by decide, rfl⟩
  | some m =>
    refine ⟨.decode, by decide, ?_⟩
    show ((feedAfter (deliver (.int m) []) c >>= fun s' => run limit s' rest) >>= finish) = _
    rw [hafter]
    rfl

/-! ## Values -/

variable {repr : F → Str}

theorem dumps_head {depth : Nat} : ∀ {value : Value F}, Legible repr depth value →
    ∃ c rest, dumps repr value = c :: rest ∧ isWhitespace c = false ∧ c ≠ ']'
  | .none, _ => ⟨'n', "ull", rfl, rfl, by decide⟩
  | .bool true, _ => ⟨'t', "rue", rfl, rfl, by decide⟩
  | .bool false, _ => ⟨'f', "alse", rfl, rfl, by decide⟩
  | .str s, _ => ⟨'"', _, rfl, rfl, by decide⟩
  | .list items, _ => ⟨'[', _, rfl, rfl, by decide⟩
  | .dict items, _ => ⟨'{', _, rfl, rfl, by decide⟩
  | .int n, h => numeral_head (numeral_int h)
  | .float x, h => numeral_head h
where
  numeral_head {text : Str} {value : Value F} (h : Numeral text value) : ∃ c rest, text = c :: rest ∧
    isWhitespace c = false ∧ c ≠ ']' := by
    obtain ⟨c, rest, htext, hc⟩ := h.head
    refine ⟨c, rest, htext, ?_, ?_⟩
    · rw [Bool.eq_false_iff]
      intro hspace
      simp only [isWhitespace, Bool.or_eq_true, beq_iff_eq] at hspace
      rcases hspace with ((rfl | rfl) | rfl) | rfl <;> cases hc
    · rintro rfl
      cases hc

/-- The first item of a list is read as every other value. -/
theorem run_first {limit depth : Nat} {value : Value F} (h : Legible repr depth value)
    (stack : List (Frame F)) (rest : Str) :
    run limit ⟨stack, .valueOrEnd⟩ (dumps repr value ++ rest) = run limit ⟨stack, .value⟩
      (dumps repr value ++ rest) := by
  obtain ⟨c, tail, hdumps, hspace, hend⟩ := dumps_head h
  rw [hdumps, List.cons_append, run_cons, run_cons]
  have hfeed : feed limit (⟨stack, .valueOrEnd⟩ : State F) c = feed limit ⟨stack, .value⟩ c := by
    show (if isWhitespace c then _ else if c = ']' then _ else begin limit stack c) = if isWhitespace c then
        _ else begin limit stack c
    rw [hspace, if_neg hend]
    rfl
  rw [hfeed]

theorem run_word (limit : Nat) (stack : List (Frame F)) (value : Value F) (c : Char) (word rest : Str) :
    run limit ⟨stack, .word (c :: word) value⟩ ((c :: word) ++ rest) = run limit (deliver value stack) rest := by
  induction word generalizing c with
  | nil =>
    have hfeed : feed limit ⟨stack, .word [c] value⟩ c = .ok (deliver value stack) := by
      show feedWord stack value c [c] = _
      rw [feedWord, if_neg (not_not.2 rfl), if_pos rfl]
    exact run_step _ hfeed rest
  | cons d word ih =>
    have hfeed : feed limit ⟨stack, .word (c :: d :: word) value⟩ c = .ok ⟨stack, .word (d :: word) value⟩ := by
      show feedWord stack value c (c :: d :: word) = _
      rw [feedWord, if_neg (not_not.2 rfl), if_neg (by simp)]
    rw [List.cons_append, run_step _ hfeed]
    exact ih d

omit [Python F] in
theorem follows_cons {c : Char} (hc : isNumberChar c = false ∧ c ≠ 'I') (rest : Str) :
    Follows (c :: rest) := fun d hd => by
  obtain rfl : c = d := Option.some.inj hd
  exact hc

omit [Python F] in
theorem put_new {es : List (Str × Value F)} {key : Str} {value : Value F} (h : key ∉ es.map Prod.fst) :
    Dict.put es key value = es ++ [(key, value)] := by
  induction es with
  | nil => rfl
  | cons e es ih =>
    obtain ⟨j, w⟩ := e
    rw [List.map_cons, List.mem_cons, not_or] at h
    rw [Dict.put, if_neg (Ne.symm h.1), ih h.2]
    rfl

/-- Where a value is read, not a key. -/
def Awaits : List (Frame F) → Prop
  | .dict _ :: _ => False
  | _ => True

omit [Python F] in
theorem closeString_awaits {stack : List (Frame F)} (h : Awaits stack) (s : Str) :
    closeString s stack = deliver (.str s) stack := by
  unfold closeString
  split
  · cases h
  · rfl

omit [Python F] in
theorem intercalate_head (sep a : Str) (texts : List Str) : ∃ rest, sep.intercalate (a :: texts) = a ++ rest := by
  cases texts with
  | nil => exact ⟨[], by rw [List.intercalate_singleton, List.append_nil]⟩
  | cons b texts => exact ⟨sep ++ sep.intercalate (b :: texts), by rw [List.intercalate_cons_cons, List.append_assoc]⟩

/-- The members of an object begin with a quote. -/
theorem run_firstKey (limit : Nat) (stack : List (Frame F)) (text : Str) :
    run limit ⟨stack, .keyOrEnd⟩ ('"' :: text) = run limit ⟨stack, .key⟩ ('"' :: text) := by
  rw [run_cons, run_cons]
  rfl

/-- A key and its colon. -/
theorem run_key (limit : Nat) (items : List (Str × Value F)) (stack : List (Frame F)) (key rest : Str) :
    run limit ⟨.dict items :: stack, .key⟩ (quote key ++ ':' :: ' ' :: rest) =
      run limit ⟨.item items key :: stack, .value⟩ rest := by
  rw [quote, List.cons_append, run_step ⟨.dict items :: stack, .string []⟩ rfl, List.append_assoc,
    List.singleton_append, run_quoted,
    closeString, run_step ⟨.item items key :: stack, .value⟩ rfl, run_step ⟨.item items key :: stack, .value⟩ rfl]

/-- Between two items of a list or an object. -/
theorem run_comma (limit : Nat) (frame : Frame F) (stack : List (Frame F)) (rest : Str) {mode : Mode F}
    (hcomma : feed limit ⟨frame :: stack, .after⟩ ',' = .ok ⟨frame :: stack, mode⟩)
    (hspace : feed limit ⟨frame :: stack, mode⟩ ' ' = .ok ⟨frame :: stack, mode⟩) :
    run limit ⟨frame :: stack, .after⟩ (", ".toList ++ rest) = run limit ⟨frame :: stack, mode⟩ rest :=
  (run_step _ hcomma (' ' :: rest)).trans (run_step _ hspace rest)

mutual

/-- Behind the text of a value the machine has the value. -/
theorem run_dumps {limit depth : Nat} : ∀ {value : Value F}, Legible repr depth value →
    ∀ {stack : List (Frame F)}, Awaits stack → stack.length + depth ≤ limit → ∀ {rest : Str}, Follows rest →
    (run limit ⟨stack, .value⟩ (dumps repr value ++ rest) >>= finish) =
      (run limit (deliver value stack) rest >>= finish)
  | .none, _, stack, _, _, rest, _ => congrArg (· >>= finish) (run_word limit stack .none 'u' "ll" rest)
  | .bool true, _, stack, _, _, rest, _ => congrArg (· >>= finish) (run_word limit stack (.bool true) 'r' "ue" rest)
  | .bool false, _, stack, _, _, rest, _ => congrArg (· >>= finish) (run_word limit stack (.bool false) 'a' "lse" rest)
  | .int n, h, stack, _, _, rest, hrest => run_numeral (numeral_int h) stack hrest
  | .float x, h, stack, _, _, rest, hrest => run_numeral h stack hrest
  | .str s, _, stack, hawaits, _, rest, _ => by
    have hopen : feed limit (⟨stack, .value⟩ : State F) '"' = .ok ⟨stack, .string []⟩ := rfl
    rw [dumps, quote, List.cons_append, run_step _ hopen, List.append_assoc, List.singleton_append, run_quoted,
      closeString_awaits hawaits]
  | .list items, h, stack, _, hdepth, rest, hrest => by
    obtain ⟨hpos, hitems⟩ := h
    have hopen : feed limit ⟨stack, .value⟩ '[' = .ok ⟨.list [] :: stack, .valueOrEnd⟩ := by
      show enter limit stack _ = _
      rw [enter, if_pos (by omega)]
    rw [dumps, List.cons_append, run_step _ hopen]
    cases items with
    | nil => rfl
    | cons value values =>
      have hvalues := run_items hitems [] (by omega : stack.length + 1 + (depth - 1) ≤ limit) rest
      obtain ⟨more, hmore⟩ := intercalate_head ", " (dumps repr value) (dumpsItems repr values)
      rw [List.append_assoc]
      rw [dumpsItems, hmore, List.append_assoc] at hvalues ⊢
      rw [run_first hitems.1]
      exact hvalues
  | .dict fields, h, stack, _, hdepth, rest, hrest => by
    obtain ⟨hpos, hkeys, hfields⟩ := h
    have hopen : feed limit ⟨stack, .value⟩ '{' = .ok ⟨.dict [] :: stack, .keyOrEnd⟩ := by
      show enter limit stack _ = _
      rw [enter, if_pos (by omega)]
    rw [dumps, List.cons_append, run_step _ hopen]
    cases fields with
    | nil => rfl
    | cons field fields =>
      have hrun := run_fields hfields [] hkeys (by omega : stack.length + 1 + (depth - 1) ≤ limit) rest
      obtain ⟨more, hmore⟩ := intercalate_head ", " (dumpsField repr field) (dumpsFields repr fields)
      obtain ⟨key, value⟩ := field
      rw [List.append_assoc]
      rw [dumpsFields, hmore, dumpsField, quote, List.cons_append, List.cons_append, List.cons_append] at hrun ⊢
      rw [run_firstKey]
      exact hrun
termination_by value => sizeOf value

theorem run_items {limit depth : Nat} : ∀ {value : Value F} {values : List (Value F)},
    LegibleItems repr depth (value :: values) →
    ∀ (items : List (Value F)) {stack : List (Frame F)}, stack.length + 1 + depth ≤ limit → ∀ rest,
    (run limit ⟨.list items :: stack, .value⟩ (", ".toList.intercalate (dumpsItems repr (value :: values)) ++
      ([']'] ++ rest)) >>= finish) =
      (run limit (deliver (.list (items ++ value :: values)) stack) rest >>= finish)
  | value, [], h, items, stack, hdepth, rest => by
    have hawaits : Awaits (.list items :: stack) := trivial
    have hend : Follows (']' :: rest) := follows_cons ⟨rfl, by decide⟩ rest
    have hvalue := run_dumps h.1 hawaits hdepth hend
    rw [dumpsItems, dumpsItems, List.intercalate_singleton, List.singleton_append, hvalue]
    rfl
  | value, next :: values, h, items, stack, hdepth, rest => by
    have hvalues := run_items h.2 (items ++ [value]) hdepth rest
    have hvalue := @run_dumps limit depth value h.1 (.list items :: stack) trivial hdepth
      (", ".toList ++ (", ".toList.intercalate (dumpsItems repr (next :: values)) ++ ([']'] ++ rest)))
        (follows_cons ⟨rfl, by decide⟩ _)
    rw [List.append_assoc, List.singleton_append] at hvalues
    rw [dumpsItems, dumpsItems, List.intercalate_cons_cons, List.append_assoc, List.append_assoc]
    rw [dumpsItems] at hvalue hvalues
    refine hvalue.trans (Eq.trans (congrArg (· >>= finish) ?_) hvalues)
    exact run_comma limit (.list (items ++ [value])) stack _ rfl rfl
termination_by value values => sizeOf (value :: values)

theorem run_fields {limit depth : Nat} : ∀ {field : Str × Value F} {fields : List (Str × Value F)},
    LegibleFields repr depth (field :: fields) →
    ∀ (items : List (Str × Value F)) {stack : List (Frame F)}, ((items ++ field :: fields).map Prod.fst).Nodup →
    stack.length + 1 + depth ≤ limit → ∀ rest,
    (run limit ⟨.dict items :: stack, .key⟩ (", ".toList.intercalate (dumpsFields repr (field :: fields)) ++
      (['}'] ++ rest)) >>= finish) =
      (run limit (deliver (.dict (items ++ field :: fields)) stack) rest >>= finish)
  | (key, value), [], h, items, stack, hkeys, hdepth, rest => by
    have hawaits : Awaits (.item items key :: stack) := trivial
    have hend : Follows ('}' :: rest) := follows_cons ⟨rfl, by decide⟩ rest
    have hvalue := run_dumps h.1 hawaits hdepth hend
    have hnew : key ∉ items.map Prod.fst := by
      rw [List.map_append, List.nodup_append] at hkeys
      exact fun hkey => hkeys.2.2 key hkey key List.mem_cons_self rfl
    rw [dumpsFields, dumpsFields, List.intercalate_singleton, List.singleton_append, dumpsField,
      List.append_assoc, List.cons_append, List.cons_append, run_key, hvalue, deliver, put_new hnew]
    rfl
  | (key, value), next :: fields, h, items, stack, hkeys, hdepth, rest => by
    have hfields := run_fields h.2 (items ++ [(key, value)]) (by rwa [List.append_assoc]) hdepth rest
    have hvalue := @run_dumps limit depth value h.1 (.item items key :: stack) trivial hdepth
      (", ".toList ++ (", ".toList.intercalate (dumpsFields repr (next :: fields)) ++ (['}'] ++ rest)))
        (follows_cons ⟨rfl, by decide⟩ _)
    have hnew : key ∉ items.map Prod.fst := by
      rw [List.map_append, List.nodup_append] at hkeys
      exact fun hkey => hkeys.2.2 key hkey key List.mem_cons_self rfl
    rw [List.append_assoc, List.singleton_append] at hfields
    rw [dumpsFields, dumpsFields, List.intercalate_cons_cons, dumpsField, List.append_assoc,
      List.append_assoc, List.append_assoc, List.cons_append, List.cons_append, run_key]
    rw [dumpsFields] at hvalue hfields
    refine hvalue.trans (Eq.trans (congrArg (· >>= finish) ?_) hfields)
    rw [deliver, put_new hnew]
    exact run_comma limit (.dict (items ++ [(key, value)])) stack _ rfl rfl
termination_by field fields => sizeOf (field :: fields)

end

/-- **What was written is read back.** -/
theorem loads_dumps {limit : Nat} {value : Value F} (h : Legible repr limit value) :
    loads limit (dumps repr value) = .ok value := by
  have hawaits : Awaits ([] : List (Frame F)) := trivial
  have hend : Follows [] := fun _ hc => by cases hc
  have hrun := run_dumps h hawaits (Nat.zero_add limit).le hend
  rw [List.append_nil] at hrun
  exact hrun

end Py.Json
