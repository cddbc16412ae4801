import SlurmWeb.Lib.Utf8

/-!
# The lexer of PromQL

A machine over octets: outside braces it reads names, numbers, durations and operators, inside them label
names and matchers, and in both quoted strings with their escapes, raw strings and comments. What it reads
is all that a parser sees of a query.

* `quoted_iff` — a text between quotes is read as that very text exactly when it holds neither the quote
  nor a backslash nor the end of a line.
* `label_iff` — a text before `=` is read as a label exactly when it is a label name.
-/

namespace PromQl

open Strings

inductive Token
  /-- A name, a number or a duration. -/
  | word (text : Octets)
  | label (name : Octets)
  | string (value : Octets)
  | symbol (c : Char)
deriving DecidableEq

def singleQuote : Char := Char.ofNat 39

def doubleQuote : Char := Char.ofNat 34

def backQuote : Char := Char.ofNat 96

/-- Where the lexer is; `inside` braces or not. -/
inductive Mode
  | code (inside : Bool)
  | word (inside : Bool) (text : Octets)
  | comment (inside : Bool)
  | raw (inside : Bool) (value : Octets)
  | quoted (inside : Bool) (quote : Char) (value : Octets)
  | escape (inside : Bool) (quote : Char) (value : Octets)
  /-- In a numeric escape, of an octet or of a code point; `left` digits are to come. -/
  | digits (inside : Bool) (quote : Char) (value : Octets) (base left read : Nat) (point : Bool)
deriving DecidableEq

def charOf (b : UInt8) : Char := Char.ofNat b.toNat

def isAlpha (c : Char) : Bool := ('a' ≤ c && c ≤ 'z') || ('A' ≤ c && c ≤ 'Z') || c == '_'

def isDigit (c : Char) : Bool := '0' ≤ c && c ≤ '9'

def startsWord (inside : Bool) (c : Char) : Bool := isAlpha c || (!inside && (isDigit c || c == ':' || c == '.'))

def continuesWord (inside : Bool) (c : Char) : Bool := isAlpha c || isDigit c || (!inside && (c == ':' || c == '.'))

def isSymbol (inside : Bool) (c : Char) : Bool :=
  (if inside then " \t\n\r,=~!" else " \t\n\r,()[]+-*/%^=!~<>@").toList.contains c

def wordToken (inside : Bool) (text : Octets) : Token := if inside then .label text else .word text

/-- Between two tokens. -/
def stepCode (inside : Bool) (b : UInt8) : Option (List Token × Mode) :=
  let c := charOf b
  if c = '#' then some ([], .comment inside)
  else if c = singleQuote ∨ c = doubleQuote then some ([], .quoted inside c [])
  else if c = backQuote then some ([], .raw inside [])
  else if startsWord inside c then some ([], .word inside [b])
  else if c = '\x7b' ∧ inside = false then some ([.symbol c], .code true)
  else if c = '\x7d' ∧ inside = true then some ([.symbol c], .code false)
  else if isSymbol inside c then some ([.symbol c], .code inside)
  else none

/-- What a character after a backslash stands for. -/
def escaped (quote c : Char) : Option UInt8 :=
  match c with
  | 'a' => some 7
  | 'b' => some 8
  | 't' => some 9
  | 'n' => some 10
  | 'v' => some 11
  | 'f' => some 12
  | 'r' => some 13
  | '\\' => some 92
  | c => if c = quote then some (octet c) else none

def digitValue (base : Nat) (c : Char) : Option Nat :=
  let value :=
    if '0' ≤ c ∧ c ≤ '9' then c.toNat - 48
    else if 'a' ≤ c ∧ c ≤ 'f' then c.toNat - 87
    else if 'A' ≤ c ∧ c ≤ 'F' then c.toNat - 55
    else base
  if value < base then some value else none

/-- The octets of a numeric escape. -/
def encoded (point : Bool) (n : Nat) : Option Octets :=
  if point then if n.isValidChar then some (String.utf8EncodeChar (Char.ofNat n)) else none
  else if n ≤ 255 then some [UInt8.ofNat n] else none

def step : Mode → UInt8 → Option (List Token × Mode)
  | .code inside, b => stepCode inside b
  | .word inside text, b =>
    if continuesWord inside (charOf b) then some ([], .word inside (text ++ [b]))
    else (stepCode inside b).map fun (ts, m) => (wordToken inside text :: ts, m)
  | .comment inside, b => some ([], if charOf b = '\n' then .code inside else .comment inside)
  | .raw inside value, b =>
    some (if charOf b = backQuote then ([.string value], .code inside) else ([], .raw inside (value ++ [b])))
  | .quoted inside quote value, b =>
    if charOf b = quote then some ([.string value], .code inside)
    else if charOf b = '\\' then some ([], .escape inside quote value)
    else if charOf b = '\n' then none
    else some ([], .quoted inside quote (value ++ [b]))
  | .escape inside quote value, b =>
    if charOf b = 'x' then some ([], .digits inside quote value 16 2 0 false)
    else if charOf b = 'u' then some ([], .digits inside quote value 16 4 0 true)
    else if charOf b = 'U' then some ([], .digits inside quote value 16 8 0 true)
    else if '0' ≤ charOf b ∧ charOf b ≤ '7' then some ([], .digits inside quote value 8 2 (b.toNat - 48) false)
    else (escaped quote (charOf b)).map fun e => ([], .quoted inside quote (value ++ [e]))
  | .digits inside quote value base left read point, b =>
    (digitValue base (charOf b)).bind fun d =>
      if left = 1 then (encoded point (base * read + d)).map fun bytes => ([], .quoted inside quote (value ++ bytes))
      else some ([], .digits inside quote value base (left - 1) (base * read + d) point)

/-- What is read of a text, and where the lexer is after it. -/
def run : Mode → Octets → Option (List Token × Mode)
  | m, [] => some ([], m)
  | m, b :: s => (step m b).bind fun (ts, m) => (run m s).map fun (us, m) => (ts ++ us, m)

/-- The last token; `none` within a string or within braces. -/
def finish : Mode → Option (List Token)
  | .code false | .comment false => some []
  | .word false text => some [.word text]
  | _ => none

def lexFrom (m : Mode) (s : Octets) : Option (List Token) :=
  (run m s).bind fun (ts, m) => (finish m).map (ts ++ ·)

/-- The tokens of a query. -/
def tokens (text : Octets) : Option (List Token) := lexFrom (.code false) text

/-! ## Runs -/

@[simp] theorem lexFrom_nil (m : Mode) : lexFrom m [] = finish m := by
  simp [lexFrom, run]

theorem lexFrom_cons (m : Mode) (b : UInt8) (s : Octets) :
    lexFrom m (b :: s) = (step m b).bind fun (ts, m) => (lexFrom m s).map (ts ++ ·) := by
  unfold lexFrom
  rw [run]
  cases step m b with
  | none => rfl
  | some out =>
    simp only [Option.bind_some]
    cases run out.2 s with
    | none => rfl
    | some out' =>
      cases hfinish : finish out'.2 <;> simp [hfinish]

/-- What comes after a text is read from where the lexer is. -/
theorem lexFrom_append {m m' : Mode} {ts : List Token} {s : Octets} (h : run m s = some (ts, m')) (t : Octets) :
    lexFrom m (s ++ t) = (lexFrom m' t).map (ts ++ ·) := by
  induction s generalizing m ts with
  | nil =>
    cases h
    simp
  | cons b s ih =>
    rw [run] at h
    obtain ⟨⟨us, m''⟩, hstep, h⟩ := Option.bind_eq_some_iff.1 h
    obtain ⟨⟨vs, m'''⟩, hrun, heq⟩ := Option.map_eq_some_iff.1 h
    cases heq
    rw [List.cons_append, lexFrom_cons, hstep]
    simp [ih hrun, Function.comp_def]

/-! ## Characters and octets -/

theorem toNat_charOf (b : UInt8) : (charOf b).toNat = b.toNat := by
  have hlt := b.toNat_lt
  have hvalid : b.toNat.isValidChar := .inl (by omega)
  rw [charOf, Char.toNat_ofNat, if_pos hvalid]

theorem charOf_eq_iff {b : UInt8} {c : Char} (hc : c.toNat < 128) : charOf b = c ↔ b = octet c := by
  rw [← Char.toNat_inj, toNat_charOf, ← UInt8.toNat_inj, toNat_octet hc]

theorem charOf_octet {c : Char} (hc : c.toNat < 128) : charOf (octet c) = c := (charOf_eq_iff hc).2 rfl

/-! ## Strings -/

/-- A quote of a string with escapes. -/
def IsQuote (q : Char) : Prop := q = singleQuote ∨ q = doubleQuote

/-- Within a string: braces or not, its quote and what is read of it. -/
def Mode.literal : Mode → Option (Bool × Char × Octets)
  | .quoted inside quote value | .escape inside quote value | .digits inside quote value _ _ _ _ =>
    some (inside, quote, value)
  | _ => none

/-- At least what stands in the text for what is read of the string. -/
def Mode.size : Mode → Nat
  | .quoted _ _ value => value.length
  | .escape _ _ value => value.length + 1
  | .digits _ _ value _ left _ point => value.length + ((if point then 6 else 4) - left)
  | _ => 0

/-- The string a lexer within it reads, and where it ends. -/
structure Closes (m : Mode) (inside : Bool) (quote : Char) (value text : Octets) (ts : List Token)
    (body rest read : Octets) (others : List Token) : Prop where
  text_eq : text = body ++ octet quote :: rest
  tokens_eq : ts = .string read :: others
  others_eq : lexFrom (.code inside) rest = some others
  length_le : read.length ≤ m.size + body.length
  /-- Only where nothing is escaped is as much read as there is. -/
  exact : read.length = m.size + body.length →
    m = .quoted inside quote value ∧ read = value ++ body ∧ ∀ b ∈ body, charOf b ≠ quote ∧
      charOf b ≠ '\\' ∧ charOf b ≠ '\n'
  count_le : value.count (octet quote) + body.count (octet quote) ≤ read.count (octet quote)

theorem IsQuote.lt {q : Char} (h : IsQuote q) : q.toNat < 128 := by
  rcases h with rfl | rfl <;> decide

theorem length_encoded {point : Bool} {n : Nat} {bytes : Octets} (h : encoded point n = some bytes) :
    bytes.length ≤ if point then 4 else 1 := by
  unfold encoded at h
  cases point with
  | true =>
    rw [if_pos rfl] at h
    split at h
    · cases h
      rw [String.length_utf8EncodeChar, if_pos rfl]
      exact Char.utf8Size_le_four _
    · cases h
  | false =>
    rw [if_neg (by decide)] at h
    split at h
    · cases h
      simp
    · cases h

section Closes

variable {m m' : Mode} {inside : Bool} {q : Char} {value value' text body rest read : Octets}
    {others ts : List Token} {b : UInt8}

/-- An octet of an escape, before the rest of the string. -/
theorem Closes.escape (h : Closes m' inside q value' text ts body rest read others) (hsize : m'.size ≤ m.size + 1)
    (hexact : m'.size = m.size + 1 → m' ≠ .quoted inside q value')
    (hcount : value.count (octet q) + (if b = octet q then 1 else 0) ≤ value'.count (octet q)) :
    Closes m inside q value (b :: text) ts (b :: body) rest read others where
  text_eq := by rw [h.text_eq, List.cons_append]
  tokens_eq := h.tokens_eq
  others_eq := h.others_eq
  length_le := by
    have hle := h.length_le
    rw [List.length_cons]
    omega
  exact hlength := by
    have hle := h.length_le
    rw [List.length_cons] at hlength
    exact absurd (h.exact (by omega)).1 (hexact (by omega))
  count_le := by
    have hle := h.count_le
    rw [List.count_cons]
    simp only [beq_iff_eq]
    omega

/-- An octet that stands for itself. -/
theorem Closes.plain (h : Closes (.quoted inside q (value ++ [b])) inside q (value ++ [b]) text ts
    body rest read others) (hb : charOf b ≠ q ∧ charOf b ≠ '\\' ∧ charOf b ≠ '\n') :
    Closes (.quoted inside q value) inside q value (b :: text) ts (b :: body) rest read others where
  text_eq := by rw [h.text_eq, List.cons_append]
  tokens_eq := h.tokens_eq
  others_eq := h.others_eq
  length_le := by
    have hle := h.length_le
    simp only [Mode.size, List.length_append, List.length_cons, List.length_nil] at hle ⊢
    omega
  exact hlength := by
    obtain ⟨-, hread, hbody⟩ := h.exact (by
      simp only [Mode.size, List.length_append, List.length_cons, List.length_nil] at hlength ⊢
      omega)
    exact ⟨rfl, by rw [hread, List.append_assoc, List.singleton_append], List.forall_mem_cons.2 ⟨hb, hbody⟩⟩
  count_le := by
    have hle := h.count_le
    rw [List.count_append, List.count_singleton] at hle
    rw [List.count_cons]
    omega

theorem count_of_ne {c : Char} (hc : charOf b = c) (hne : c ≠ q) (hq : IsQuote q) :
    value.count (octet q) + (if b = octet q then 1 else 0) ≤ value.count (octet q) := by
  rw [if_neg]
  · exact Nat.le_refl _
  · rintro rfl
    rw [charOf_octet hq.lt] at hc
    exact hne hc.symm

theorem ne_quote (hq : IsQuote q) : 'x' ≠ q ∧ 'u' ≠ q ∧ 'U' ≠ q ∧ '\\' ≠ q ∧ ¬ ('0' ≤ q ∧ q ≤ '7') := by
  rcases hq with rfl | rfl <;> decide

theorem digitValue_quote (hq : IsQuote q) (base : Nat) : digitValue base q = none := by
  have hranges : ¬ ('0' ≤ q ∧ q ≤ '9') ∧ ¬ ('a' ≤ q ∧ q ≤ 'f') ∧ ¬ ('A' ≤ q ∧ q ≤ 'F') := by
    rcases hq with rfl | rfl <;> decide
  simp only [digitValue, if_neg hranges.1, if_neg hranges.2.1, if_neg hranges.2.2, Nat.lt_irrefl, if_false]

theorem escaped_quote (hq : IsQuote q) {e : UInt8} (h : escaped q q = some e) : e = octet q := by
  rcases hq with rfl | rfl <;> exact (Option.some.inj h).symm

/-- A lexer within a string reads to its end. -/
theorem closes (hq : IsQuote q) (hm : m.literal = some (inside, q, value)) (h : lexFrom m text = some ts) :
    ∃ body rest read others, Closes m inside q value text ts body rest read others := by
  obtain ⟨hx, hu, hU, hbackslash, hdigit⟩ := ne_quote hq
  induction text generalizing m value ts with
  | nil =>
    rw [lexFrom_nil] at h
    cases m <;> simp [Mode.literal] at hm <;> cases h
  | cons b text ih =>
    rw [lexFrom_cons] at h
    obtain ⟨⟨us, m'⟩, hstep, h⟩ := Option.bind_eq_some_iff.1 h
    obtain ⟨vs, hrest, rfl⟩ := Option.map_eq_some_iff.1 h
    cases m with
    | code | word | comment | raw => cases hm
    | quoted inside' q' value' =>
      cases hm
      rw [step] at hstep
      split at hstep
      · rename_i hclose
        cases hstep
        exact ⟨[], text, value, vs, by rw [(charOf_eq_iff hq.lt).1 hclose]; rfl, rfl, hrest, Nat.le_refl _,
          fun _ => ⟨rfl, (List.append_nil _).symm, fun _ h => by cases h⟩, Nat.le_refl _⟩
      · rename_i hopen
        split at hstep
        · rename_i hescape
          cases hstep
          obtain ⟨body, rest, read, others, hcloses⟩ := ih rfl hrest
          exact ⟨_, _, _, _, hcloses.escape (Nat.le_refl _) (fun _ => nofun) (count_of_ne hescape hbackslash hq)⟩
        · rename_i hplain
          split at hstep
          · cases hstep
          · rename_i hline
            cases hstep
            obtain ⟨body, rest, read, others, hcloses⟩ := ih rfl hrest
            exact ⟨_, _, _, _, hcloses.plain ⟨hopen, hplain, hline⟩⟩
    | escape inside' q' value' =>
      cases hm
      rw [step] at hstep
      split at hstep
      · rename_i hc
        cases hstep
        obtain ⟨body, rest, read, others, hcloses⟩ := ih rfl hrest
        exact ⟨_, _, _, _, hcloses.escape (by simp [Mode.size]) (fun _ => nofun) (count_of_ne hc hx hq)⟩
      · split at hstep
        · rename_i hc
          cases hstep
          obtain ⟨body, rest, read, others, hcloses⟩ := ih rfl hrest
          exact ⟨_, _, _, _, hcloses.escape (by simp [Mode.size]) (fun _ => nofun) (count_of_ne hc hu hq)⟩
        · split at hstep
          · rename_i hc
            cases hstep
            obtain ⟨body, rest, read, others, hcloses⟩ := ih rfl hrest
            exact ⟨_, _, _, _, hcloses.escape (by simp [Mode.size]; omega) (fun _ => nofun) (count_of_ne hc hU hq)⟩
          · split at hstep
            · rename_i hc
              cases hstep
              obtain ⟨body, rest, read, others, hcloses⟩ := ih rfl hrest
              have hne : charOf b ≠ q := fun heq => hdigit (heq ▸ hc)
              exact ⟨_, _, _, _, hcloses.escape (by simp [Mode.size]) (fun _ => nofun) (count_of_ne rfl hne hq)⟩
            · obtain ⟨e, he, heq⟩ := Option.map_eq_some_iff.1 hstep
              cases heq
              obtain ⟨body, rest, read, others, hcloses⟩ := ih rfl hrest
              refine ⟨_, _, _, _, hcloses.escape (by simp [Mode.size]) (fun hsize => ?_) ?_⟩
              · simp [Mode.size] at hsize
              · rw [List.count_append, List.count_singleton]
                by_cases hb : b = octet q
                · rw [hb, charOf_octet hq.lt] at he
                  simp [hb, escaped_quote hq he]
                · simp [hb]
    | digits inside' q' value' base left n point =>
      cases hm
      rw [step] at hstep
      obtain ⟨d, hd, hstep⟩ := Option.bind_eq_some_iff.1 hstep
      have hne : charOf b ≠ q := by
        intro heq
        rw [heq, digitValue_quote hq] at hd
        cases hd
      split at hstep
      · rename_i hleft
        obtain ⟨bytes, hbytes, heq⟩ := Option.map_eq_some_iff.1 hstep
        cases heq
        have hlength := length_encoded hbytes
        obtain ⟨body, rest, read, others, hcloses⟩ := ih rfl hrest
        refine ⟨_, _, _, _, hcloses.escape ?_ (fun hsize => ?_) ?_⟩
        · simp only [Mode.size, List.length_append]
          cases point <;> simp at hlength ⊢ <;> omega
        · simp only [Mode.size, List.length_append] at hsize
          cases point <;> simp at hlength hsize <;> omega
        · rw [List.count_append]
          exact (count_of_ne rfl hne hq).trans (Nat.le_add_right _ _)
      · cases hstep
        obtain ⟨body, rest, read, others, hcloses⟩ := ih rfl hrest
        exact ⟨_, _, _, _, hcloses.escape (by simp only [Mode.size]; omega) (fun _ => nofun) (count_of_ne rfl hne hq)⟩

end Closes

/-- A text that stands for itself between quotes. -/
def Literal (q : Char) (s : Str) : Prop := ∀ c ∈ s, c ≠ q ∧ c ≠ '\\' ∧ c ≠ '\n'

theorem literal_iff {q : Char} (hq : IsQuote q) {s : Str} :
    Literal q s ↔ ∀ b ∈ utf8 s, charOf b ≠ q ∧ charOf b ≠ '\\' ∧ charOf b ≠ '\n' := by
  have hmem : ∀ c : Char, c.toNat < 128 → ((∀ d ∈ s, d ≠ c) ↔ ∀ b ∈ utf8 s, charOf b ≠ c) := by
    intro c hc
    have hs : (∀ d ∈ s, d ≠ c) ↔ c ∉ s := ⟨fun h hmem => h c hmem rfl, fun h d hd heq => h (heq ▸ hd)⟩
    rw [hs, ← mem_utf8 hc]
    constructor
    · intro h b hb heq
      rw [(charOf_eq_iff hc).1 heq] at hb
      exact h hb
    · intro h hb
      exact h _ hb (charOf_octet hc)
  have hquote := hmem q hq.lt
  have hbackslash := hmem '\\' (by decide)
  have hline := hmem '\n' (by decide)
  simp only [Literal, forall_and]
  rw [hquote, hbackslash, hline]

theorem run_quoted {inside : Bool} {q : Char} {value s : Octets}
    (h : ∀ b ∈ s, charOf b ≠ q ∧ charOf b ≠ '\\' ∧ charOf b ≠ '\n') :
    run (.quoted inside q value) s = some ([], .quoted inside q (value ++ s)) := by
  induction s generalizing value with
  | nil => simp [run]
  | cons b s ih =>
    obtain ⟨hq, hbackslash, hline⟩ := h b List.mem_cons_self
    rw [run, step, if_neg hq, if_neg hbackslash, if_neg hline]
    simp [ih fun c hc => h c (List.mem_cons_of_mem _ hc)]

/-- **A text between quotes is read as that very text** exactly when it is literal, and nothing of it was decoded
before. -/
theorem quoted_iff {inside : Bool} {q : Char} (hq : IsQuote q) {s : Str} {a b : Octets} {ts : List Token}
    (ha : a = utf8 s ∨ a.length < (utf8 s).length) (hcount : s.count q ≤ a.count (octet q)) :
    lexFrom (.quoted inside q []) (a ++ octet q :: b) = some (.string (utf8 s) :: ts) ↔
      a = utf8 s ∧ Literal q s ∧ lexFrom (.code inside) b = some ts := by
  constructor
  · intro h
    obtain ⟨body, rest, read, others, hcloses⟩ := closes hq rfl h
    obtain ⟨hread, hothers⟩ := List.cons.inj hcloses.tokens_eq
    cases hread
    have hle := hcloses.length_le
    have hquotes := hcloses.count_le
    rw [count_utf8 hq.lt] at hquotes
    simp only [Mode.size, List.length_nil, List.count_nil, Nat.zero_add] at hle hquotes
    have hwhole : a = body → b = rest → a = utf8 s ∧ Literal q s ∧ lexFrom (.code inside) b = some ts := by
      rintro rfl rfl
      have hread : a = utf8 s := ha.resolve_right (by omega)
      obtain ⟨-, -, hplain⟩ := hcloses.exact (by simp [Mode.size, hread])
      rw [hread] at hplain
      rw [hothers]
      exact ⟨hread, (literal_iff hq).2 hplain, hcloses.others_eq⟩
    rcases List.append_eq_append_iff.1 hcloses.text_eq with ⟨more, hbody, hmore⟩ | ⟨more, hbody, hmore⟩
    · cases more with
      | nil => exact hwhole (by simpa using hbody.symm) (List.cons.inj hmore).2
      | cons c more =>
        -- a quote that was escaped is one more than the text has
        have hc : c = octet q := (List.cons.inj hmore).1.symm
        rw [hbody, List.count_append, hc, List.count_cons_self] at hquotes
        omega
    · cases more with
      | nil => exact hwhole (by simpa using hbody) (List.cons.inj hmore).2.symm
      | cons c more =>
        -- a quote in the text ends the string before it
        rw [hbody, List.length_append, List.length_cons] at ha
        rcases ha with ha | ha
        · have hlength := congrArg List.length ha
          rw [List.length_append, List.length_cons] at hlength
          omega
        · omega
  · rintro ⟨rfl, hliteral, h⟩
    have hrun := @run_quoted inside q [] _ ((literal_iff hq).1 hliteral)
    rw [lexFrom_append hrun, lexFrom_cons, step, if_pos (charOf_octet hq.lt)]
    simp [h]

/-! ## Labels -/

/-- `[a-zA-Z_][a-zA-Z0-9_]*` -/
def isLabel (s : Str) : Bool := s.head?.any (startsWord true) && s.all (continuesWord true)

theorem isAlpha_lt {c : Char} (h : isAlpha c = true) : c.toNat < 128 := by
  simp only [isAlpha, Bool.or_eq_true, Bool.and_eq_true, decide_eq_true_eq, beq_iff_eq] at h
  rcases h with (⟨-, h⟩ | ⟨-, h⟩) | rfl
  · exact lt_of_le_of_lt (Char.le_def.1 h : c.val ≤ _) (by decide)
  · exact lt_of_le_of_lt (Char.le_def.1 h : c.val ≤ _) (by decide)
  · decide

theorem continuesWord_lt {c : Char} (h : continuesWord true c = true) : c.toNat < 128 := by
  simp only [continuesWord, Bool.not_true, Bool.false_and, Bool.or_false, Bool.or_eq_true] at h
  rcases h with h | h
  · exact isAlpha_lt h
  · simp only [isDigit, Bool.and_eq_true, decide_eq_true_eq] at h
    exact lt_of_le_of_lt (Char.le_def.1 h.2 : c.val ≤ _) (by decide)

theorem map_charOf_utf8 {s : Str} (h : ∀ c ∈ s, c.toNat < 128) : (utf8 s).map charOf = s := by
  induction s with
  | nil => rfl
  | cons c s ih =>
    have hc := h c List.mem_cons_self
    rw [utf8_cons, utf8EncodeChar_ascii hc, List.singleton_append, List.map_cons, charOf_octet hc,
      ih fun d hd => h d (List.mem_cons_of_mem _ hd)]

/-- A label name is one in its octets. -/
theorem isLabel_utf8 {s : Str} : isLabel ((utf8 s).map charOf) = true ↔ isLabel s = true := by
  have hascii : (∀ c ∈ s, c.toNat < 128) → (isLabel ((utf8 s).map charOf) = true ↔ isLabel s = true) := by
    intro h
    rw [map_charOf_utf8 h]
  constructor
  · intro h
    refine (hascii fun c hc => ?_).1 h
    by_contra hge
    obtain ⟨b, hb⟩ := List.exists_mem_of_ne_nil _ (String.utf8EncodeChar_ne_nil (c := c))
    have hle := le_of_mem_utf8EncodeChar (Nat.not_lt.1 hge) b hb
    rw [isLabel, Bool.and_eq_true, List.all_eq_true] at h
    have hlt := continuesWord_lt (h.2 (charOf b) (List.mem_map_of_mem (List.mem_flatMap.2 ⟨c, hc, hb⟩)))
    rw [toNat_charOf] at hlt
    omega
  · intro h
    refine (hascii fun c hc => ?_).2 h
    rw [isLabel, Bool.and_eq_true, List.all_eq_true] at h
    exact continuesWord_lt (h.2 c hc)

/-- What a lexer within a name has of it. -/
def Mode.Named (m : Mode) : Prop := ∀ text, m = .word true text → isLabel (text.map charOf) = true

theorem stepCode_named {inside : Bool} {b : UInt8} {ts : List Token} {m : Mode} (h : stepCode inside b = some (ts, m)) :
    (∀ n, .label n ∉ ts) ∧ m.Named := by
  unfold stepCode at h
  simp only at h
  split at h
  · cases h
    exact ⟨fun n => List.not_mem_nil, nofun⟩
  split at h
  · cases h
    exact ⟨fun n => List.not_mem_nil, nofun⟩
  split at h
  · cases h
    exact ⟨fun n => List.not_mem_nil, nofun⟩
  split at h
  · rename_i hstart
    cases h
    refine ⟨fun n => List.not_mem_nil, ?_⟩
    rintro text heq
    cases heq
    have hcontinue : continuesWord true (charOf b) = true := by
      simp only [startsWord, Bool.not_true, Bool.false_and, Bool.or_false] at hstart
      simp [continuesWord, hstart]
    simp [isLabel, hstart, hcontinue]
  split at h
  · cases h
    exact ⟨fun n => by simp, nofun⟩
  split at h
  · cases h
    exact ⟨fun n => by simp, nofun⟩
  split at h
  · cases h
    exact ⟨fun n => by simp, nofun⟩
  · cases h

theorem isLabel_snoc {s : Str} {c : Char} (hs : isLabel s = true) (hc : continuesWord true c = true) :
    isLabel (s ++ [c]) = true := by
  cases s with
  | nil => cases hs
  | cons d s =>
    simp only [isLabel, List.head?_cons, Option.any_some, List.all_cons, Bool.and_eq_true] at hs
    simp [isLabel, hs, hc]

theorem step_named {m m' : Mode} {b : UInt8} {ts : List Token} (hm : m.Named) (h : step m b = some (ts, m')) :
    (∀ n, .label n ∈ ts → isLabel (n.map charOf) = true) ∧ m'.Named := by
  have hsilent : ∀ m'' : Mode, m''.Named → some (([] : List Token), m'') = some (ts, m') →
      (∀ n, .label n ∈ ts → isLabel (n.map charOf) = true) ∧ m'.Named := by
    intro m'' hnamed heq
    cases heq
    exact ⟨fun n hn => absurd hn List.not_mem_nil, hnamed⟩
  cases m with
  | code inside =>
    obtain ⟨hnone, hnamed⟩ := stepCode_named h
    exact ⟨fun n hn => absurd hn (hnone n), hnamed⟩
  | word inside text =>
    rw [step] at h
    split at h
    · rename_i hcontinue
      refine hsilent _ ?_ h
      rintro text' heq
      cases heq
      rw [List.map_append]
      exact isLabel_snoc (hm text rfl) hcontinue
    · obtain ⟨⟨us, m''⟩, hcode, heq⟩ := Option.map_eq_some_iff.1 h
      cases heq
      obtain ⟨hnone, hnamed⟩ := stepCode_named hcode
      refine ⟨fun n hn => ?_, hnamed⟩
      rcases List.mem_cons.1 hn with hn | hn
      · cases inside with
        | true =>
          cases hn
          exact hm text rfl
        | false => cases hn
      · exact absurd hn (hnone n)
  | comment inside =>
    refine hsilent _ ?_ h
    split <;> exact fun _ h => by cases h
  | raw inside value =>
    rw [step] at h
    split at h <;> cases h
    · exact ⟨fun n hn => by simp at hn, fun _ h => by cases h⟩
    · exact ⟨fun n hn => by simp at hn, fun _ h => by cases h⟩
  | quoted inside q value =>
    rw [step] at h
    split at h
    · cases h
      exact ⟨fun n hn => by simp at hn, fun _ h => by cases h⟩
    split at h
    · exact hsilent _ (fun _ h => by cases h) h
    split at h
    · cases h
    · exact hsilent _ (fun _ h => by cases h) h
  | escape inside q value =>
    rw [step] at h
    iterate 4
      split at h
      · exact hsilent _ (fun _ h => by cases h) h
    obtain ⟨e, -, heq⟩ := Option.map_eq_some_iff.1 h
    exact hsilent _ (fun _ h => by cases h) (congrArg some heq)
  | digits inside q value base left read point =>
    rw [step] at h
    obtain ⟨d, -, h⟩ := Option.bind_eq_some_iff.1 h
    split at h
    · obtain ⟨bytes, -, heq⟩ := Option.map_eq_some_iff.1 h
      exact hsilent _ (fun _ h => by cases h) (congrArg some heq)
    · exact hsilent _ (fun _ h => by cases h) h

/-- A label that is read is a label name. -/
theorem lexFrom_named {m : Mode} {text : Octets} {ts : List Token} (hm : m.Named) (h : lexFrom m text = some ts) :
    ∀ n, .label n ∈ ts → isLabel (n.map charOf) = true := by
  induction text generalizing m ts with
  | nil =>
    rw [lexFrom_nil] at h
    intro n hn
    unfold finish at h
    split at h <;> cases h <;> simp at hn
  | cons b text ih =>
    rw [lexFrom_cons] at h
    obtain ⟨⟨us, m'⟩, hstep, h⟩ := Option.bind_eq_some_iff.1 h
    obtain ⟨vs, hrest, rfl⟩ := Option.map_eq_some_iff.1 h
    obtain ⟨hus, hm'⟩ := step_named hm hstep
    intro n hn
    exact (List.mem_append.1 hn).elim (hus n) (ih hm' hrest n)

theorem run_label {h : Str} (hlabel : isLabel h = true) :
    run (.code true) (utf8 h) = some ([], .word true (utf8 h)) := by
  cases h with
  | nil => cases hlabel
  | cons c h =>
    simp only [isLabel, List.head?_cons, Option.any_some, Bool.and_eq_true, List.all_eq_true] at hlabel
    obtain ⟨hstart, hcontinue⟩ := hlabel
    have hlt : ∀ d ∈ c :: h, d.toNat < 128 := fun d hd => continuesWord_lt (hcontinue d hd)
    have hfirst : stepCode true (octet c) = some ([], .word true [octet c]) := by
      have hne : c ≠ '#' ∧ ¬ (c = singleQuote ∨ c = doubleQuote) ∧ c ≠ backQuote := by
        refine ⟨?_, ?_, ?_⟩
        · rintro rfl
          cases hstart
        · rintro (rfl | rfl) <;> cases hstart
        · rintro rfl
          cases hstart
      simp [stepCode, charOf_octet (hlt c List.mem_cons_self), hne, hstart]
    have hmore : ∀ (s : Str) (text : Octets), (∀ d ∈ s, d.toNat < 128 ∧ continuesWord true d = true) →
        run (.word true text) (utf8 s) = some ([], .word true (text ++ utf8 s)) := by
      intro s
      induction s with
      | nil => simp [run]
      | cons d s ih =>
        intro text hs
        obtain ⟨hd, hword⟩ := hs d List.mem_cons_self
        rw [utf8_cons, utf8EncodeChar_ascii hd, List.singleton_append, run, step, charOf_octet hd, if_pos hword]
        simp [ih (text ++ [octet d]) fun e he => hs e (List.mem_cons_of_mem _ he)]
    rw [utf8_cons, utf8EncodeChar_ascii (hlt c List.mem_cons_self), List.singleton_append, run, step, hfirst]
    simp [hmore h [octet c] fun d hd => ⟨hlt d (List.mem_cons_of_mem _ hd), hcontinue d (List.mem_cons_of_mem _ hd)⟩]

/-- **A text before `=` is read as the label of that very name** exactly when it is a label name. -/
theorem label_iff {h : Str} {a b : Octets} {ts : List Token} (ha : isLabel h = true → a = utf8 h) :
    lexFrom (.code true) (a ++ octet '=' :: b) = some (.label (utf8 h) :: .symbol '=' :: ts) ↔
      isLabel h = true ∧ lexFrom (.code true) b = some ts := by
  have hread : isLabel h = true → lexFrom (.code true) (a ++ octet '=' :: b) =
      (lexFrom (.code true) b).map fun us => .label (utf8 h) :: .symbol '=' :: us := by
    intro hlabel
    have hstep : step (.word true (utf8 h)) (octet '=') = some ([.label (utf8 h), .symbol '='], .code true) := rfl
    rw [ha hlabel, lexFrom_append (run_label hlabel), lexFrom_cons, hstep]
    simp [Function.comp_def]
  constructor
  · intro hlex
    have hlabel := isLabel_utf8.1 (lexFrom_named (fun _ h => by cases h) hlex _ List.mem_cons_self)
    rw [hread hlabel] at hlex
    obtain ⟨us, hus, heq⟩ := Option.map_eq_some_iff.1 hlex
    cases heq
    exact ⟨hlabel, hus⟩
  · rintro ⟨hlabel, h⟩
    rw [hread hlabel, h]
    rfl

end PromQl
