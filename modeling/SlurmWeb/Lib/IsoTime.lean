import SlurmWeb.Lib.Strings

/-!
# Datetimes as ISO 8601 texts

Python's aware `datetime`, the text `isoformat` makes of it, and the two ways such a text is read as a
number: JavaScript's `new Date(text).getTime()`, and Python's `int(text)`.

* `jsTime_isoformat` — JavaScript reads the instant, to the millisecond.
* `pyInt_isoformat` — Python reads no number.
-/

namespace IsoTime

open Strings

/-! ## Calendar -/

def isLeap (year : Nat) : Bool := year % 4 == 0 && (year % 100 != 0 || year % 400 == 0)

/-- The days of a year before its month. -/
def daysBeforeMonth (year month : Nat) : Nat :=
  [0, 31, 59, 90, 120, 151, 181, 212, 243, 273, 304, 334].getD (month - 1) 0 +
    if 2 < month && isLeap year then 1 else 0

/-- The day number of a date in the Gregorian calendar; 1 is 0001-01-01. -/
def ordinal (year month day : Nat) : Nat :=
  365 * (year - 1) + (year - 1) / 4 - (year - 1) / 100 + (year - 1) / 400 + daysBeforeMonth year month + day

def daysInMonth (year month : Nat) : Nat :=
  [31, if isLeap year then 29 else 28, 31, 30, 31, 30, 31, 31, 30, 31, 30, 31].getD (month - 1) 0

/-- A date of the proleptic calendar, a time of the day, and its offset from UTC in minutes. -/
structure Datetime where
  year : Nat
  month : Nat
  day : Nat
  hour : Nat
  minute : Nat
  second : Nat
  microsecond : Nat
  offset : Int
  year_le : 1 ≤ year ∧ year ≤ 9999
  month_le : 1 ≤ month ∧ month ≤ 12
  day_le : 1 ≤ day ∧ day ≤ daysInMonth year month
  hour_lt : hour < 24
  minute_lt : minute < 60
  second_lt : second < 60
  microsecond_lt : microsecond < 1000000
  offset_lt : offset.natAbs < 1440

/-! The bounds at a full hour, minute or second, and in UTC. -/

theorem zero_lt_hours : 0 < 24 := by decide

theorem zero_lt_minutes : 0 < 60 := by decide

theorem zero_lt_microseconds : 0 < 1000000 := by decide

theorem utc_lt : (0 : Int).natAbs < 1440 := by decide

/-- Seconds since the epoch of a time in UTC. -/
def utcSeconds (year month day hour minute second : Nat) (offset : Int) : Int :=
  ((ordinal year month day : Int) - 719163) * 86400 + hour * 3600 + minute * 60 + second - offset * 60

/-- Microseconds since the epoch. -/
def Datetime.instant (d : Datetime) : Int :=
  utcSeconds d.year d.month d.day d.hour d.minute d.second d.offset * 1000000 + d.microsecond

/-! ## Digits -/

def isDigit (c : Char) : Bool := '0' ≤ c && c ≤ '9'

/-- The last decimal digit. -/
def digit (n : Nat) : Char := Char.ofNat (48 + n % 10)

def digitValue (c : Char) : Nat := c.toNat - 48

theorem digit_spec (n : Nat) : isDigit (digit n) = true ∧ digitValue (digit n) = n % 10 := by
  have hall : ∀ k : Fin 10, isDigit (Char.ofNat (48 + k)) = true ∧ digitValue (Char.ofNat (48 + k)) = k := by decide
  exact hall ⟨n % 10, Nat.mod_lt _ (by decide)⟩

@[simp] theorem isDigit_digit (n : Nat) : isDigit (digit n) = true := (digit_spec n).1

@[simp] theorem digitValue_digit (n : Nat) : digitValue (digit n) = n % 10 := (digit_spec n).2

def pad2 (n : Nat) : Str := [digit (n / 10), digit n]

def pad4 (n : Nat) : Str := [digit (n / 1000), digit (n / 100), digit (n / 10), digit n]

def pad6 (n : Nat) : Str :=
  [digit (n / 100000), digit (n / 10000), digit (n / 1000), digit (n / 100), digit (n / 10), digit n]

/-- Digits as a number. -/
def value (digits : Str) : Nat := digits.foldl (fun n c => 10 * n + digitValue c) 0

def number (text : Str) : Option Nat := if text ≠ [] ∧ text.all isDigit then some (value text) else none

theorem number_pad2 {n : Nat} (h : n < 100) : number (pad2 n) = some n := by
  have hvalue : value (pad2 n) = n := by
    simp [value, pad2]
    omega
  rw [number, if_pos (by simp [pad2]), hvalue]

theorem number_pad4 {n : Nat} (h : n < 10000) : number (pad4 n) = some n := by
  have hvalue : value (pad4 n) = n := by
    simp [value, pad4]
    omega
  rw [number, if_pos (by simp [pad4]), hvalue]

/-! ## Texts -/

/-- `isoformat()` -/
def Datetime.isoformat (d : Datetime) : Str :=
  pad4 d.year ++ '-' :: pad2 d.month ++ '-' :: pad2 d.day ++ 'T' :: pad2 d.hour ++ ':' :: pad2 d.minute ++
    ':' :: pad2 d.second ++ (if d.microsecond = 0 then [] else '.' :: pad6 d.microsecond) ++
    (if d.offset < 0 then '-' else '+') :: pad2 (d.offset.natAbs / 60) ++ ':' :: pad2 (d.offset.natAbs % 60)

/-- The milliseconds of a fraction of a second. -/
def millis (fraction : Str) : Nat := value ((fraction ++ ['0', '0']).take 3)

/-- The offset after the time, in minutes. -/
def zoneOffset : Str → Option Int
  | ['Z'] => some 0
  | sign :: h1 :: h2 :: ':' :: m1 :: m2 :: [] => do
    let hours ← number [h1, h2]
    let minutes ← number [m1, m2]
    if sign = '+' then return (60 * hours + minutes : Nat)
    else if sign = '-' then return -(60 * hours + minutes : Nat)
    else none
  | _ => none

/-- The milliseconds after the seconds, and what is left. -/
def readFraction : Str → Nat × Str
  | '.' :: rest => (millis (rest.takeWhile isDigit), rest.dropWhile isDigit)
  | rest => (0, rest)

/-- `new Date(text).getTime()` for a date and time with an offset; `none` is NaN. -/
def jsTime (text : Str) : Option Int := do
  let year ← number (text.take 4)
  let month ← number ((text.drop 5).take 2)
  let day ← number ((text.drop 8).take 2)
  let hour ← number ((text.drop 11).take 2)
  let minute ← number ((text.drop 14).take 2)
  let second ← number ((text.drop 17).take 2)
  if [text[4]?, text[7]?, text[10]?, text[13]?, text[16]?] ≠
    [some '-', some '-', some 'T', some ':', some ':'] then none
  else if month = 0 ∨ 12 < month ∨ day = 0 ∨ 31 < day ∨ 23 < hour ∨ 59 < minute ∨ 59 < second then none
  else
    let fraction := readFraction (text.drop 19)
    let offset ← zoneOffset fraction.2
    return utcSeconds year month day hour minute second offset * 1000 + fraction.1

/-- Digits, with single underscores between them. -/
def groupedNumber (text : Str) : Option Nat :=
  if text.all (fun c => isDigit c || c == '_') && (text.splitOn '_').all (· ≠ []) then
    some (value (text.filter (· ≠ '_')))
  else none

/-- The digits `int` converts (`sys.int_info.default_max_str_digits`); leading zeros count. -/
def maxStrDigits : Nat := 4300

def limitedNumber (text : Str) : Option Nat :=
  if maxStrDigits < text.countP isDigit then none else groupedNumber text

/-- `int(text)`, of a text in ASCII; `none` is a `ValueError`. -/
def pyInt (text : Str) : Option Int :=
  match strip text with
  | '-' :: digits => (limitedNumber digits).map fun n => -(n : Int)
  | '+' :: digits => (limitedNumber digits).map fun n => (n : Int)
  | digits => (limitedNumber digits).map fun n => (n : Int)

/-! ## What is read of `isoformat` -/

variable (d : Datetime)

/-- The offset of `isoformat`. -/
def Datetime.zone : Str :=
  (if d.offset < 0 then '-' else '+') :: pad2 (d.offset.natAbs / 60) ++ ':' :: pad2 (d.offset.natAbs % 60)

theorem zoneOffset_zone : zoneOffset d.zone = some d.offset := by
  have hlt := d.offset_lt
  have hhours : number [digit (d.offset.natAbs / 60 / 10), digit (d.offset.natAbs / 60)] =
      some (d.offset.natAbs / 60) :=
    number_pad2 (by omega)
  have hminutes : number [digit (d.offset.natAbs % 60 / 10), digit (d.offset.natAbs % 60)] =
      some (d.offset.natAbs % 60) :=
    number_pad2 (by omega)
  have hminutes_eq : 60 * (d.offset.natAbs / 60) + d.offset.natAbs % 60 = d.offset.natAbs := Nat.div_add_mod _ _
  by_cases hneg : d.offset < 0
  · have hread : zoneOffset d.zone = some (-((60 * (d.offset.natAbs / 60) + d.offset.natAbs % 60 : Nat) : Int)) := by
      simp only [Datetime.zone, if_pos hneg, pad2, List.cons_append, List.nil_append, zoneOffset, hhours, hminutes]
      rfl
    rw [hread, hminutes_eq]
    congr 1
    omega
  · have hread : zoneOffset d.zone = some ((60 * (d.offset.natAbs / 60) + d.offset.natAbs % 60 : Nat) : Int) := by
      simp only [Datetime.zone, if_neg hneg, pad2, List.cons_append, List.nil_append, zoneOffset, hhours, hminutes]
      rfl
    rw [hread, hminutes_eq]
    congr 1
    omega

theorem millis_pad6 {n : Nat} (h : n < 1000000) : millis (pad6 n) = n / 1000 := by
  simp [millis, pad6, value]
  omega

theorem month_day_le : d.month ≤ 12 ∧ d.day ≤ 31 := by
  refine ⟨d.month_le.2, d.day_le.2.trans ?_⟩
  have hmonth := d.month_le
  unfold daysInMonth
  generalize d.month = m at *
  obtain ⟨h1, h12⟩ := hmonth
  interval_cases m <;> simp
  split <;> decide

theorem readFraction_isoformat : readFraction (d.isoformat.drop 19) = (d.microsecond / 1000, d.zone) := by
  have hsign : ∃ sign rest, d.zone = sign :: rest ∧ isDigit sign = false ∧ sign ≠ '.' := by
    by_cases hneg : d.offset < 0
    · exact ⟨_, _, by rw [Datetime.zone, if_pos hneg]; rfl, by decide, by decide⟩
    · exact ⟨_, _, by rw [Datetime.zone, if_neg hneg]; rfl, by decide, by decide⟩
  obtain ⟨sign, rest, hzone, hdigit, hdot⟩ := hsign
  have hdrop : d.isoformat.drop 19 = (if d.microsecond = 0 then [] else '.' :: pad6 d.microsecond) ++ d.zone := by
    simp [Datetime.isoformat, Datetime.zone, pad4, pad2]
  rw [hdrop]
  by_cases hmicro : d.microsecond = 0
  · rw [if_pos hmicro, hmicro, List.nil_append, hzone]
    unfold readFraction
    split
    · rename_i h
      exact absurd (List.cons.inj h).1 hdot
    · rfl
  · have hall : ∀ c ∈ pad6 d.microsecond, isDigit c = true := by simp [pad6]
    rw [if_neg hmicro, List.cons_append, readFraction, List.takeWhile_append_of_pos hall,
      List.dropWhile_append_of_pos hall, hzone]
    simp [hdigit, millis_pad6 d.microsecond_lt]

/-- JavaScript reads the instant, to the millisecond. -/
theorem jsTime_isoformat : jsTime d.isoformat = some (d.instant / 1000) := by
  have hyear : number (d.isoformat.take 4) = some d.year := number_pad4 (by have := d.year_le; omega)
  have hmonth : number ((d.isoformat.drop 5).take 2) = some d.month := number_pad2 (by have := month_day_le d; omega)
  have hday : number ((d.isoformat.drop 8).take 2) = some d.day := number_pad2 (by have := month_day_le d; omega)
  have hhour : number ((d.isoformat.drop 11).take 2) = some d.hour := number_pad2 (by have := d.hour_lt; omega)
  have hminute : number ((d.isoformat.drop 14).take 2) = some d.minute := number_pad2 (by have := d.minute_lt; omega)
  have hsecond : number ((d.isoformat.drop 17).take 2) = some d.second := number_pad2 (by have := d.second_lt; omega)
  have hmarks : ¬ [d.isoformat[4]?, d.isoformat[7]?, d.isoformat[10]?, d.isoformat[13]?, d.isoformat[16]?] ≠
      [some '-', some '-', some 'T', some ':', some ':'] := not_not.2 rfl
  have hranges : ¬ (d.month = 0 ∨ 12 < d.month ∨ d.day = 0 ∨ 31 < d.day ∨ 23 < d.hour ∨
      59 < d.minute ∨ 59 < d.second) := by
    have hmonth_day := month_day_le d
    have := d.month_le
    have := d.day_le
    have := d.hour_lt
    have := d.minute_lt
    have := d.second_lt
    omega
  unfold jsTime
  simp only [hyear, hmonth, hday, hhour, hminute, hsecond, Option.bind_eq_bind, Option.bind_some,
    if_neg hmarks, if_neg hranges, readFraction_isoformat, zoneOffset_zone]
  have hmicro : ((d.microsecond / 1000 : Nat) : Int) = (d.microsecond : Int) / 1000 := Int.natCast_ediv _ _
  rw [Datetime.instant, hmicro]
  refine congrArg some ?_
  omega

theorem mem_of_groupedNumber {text : Str} {n : Nat} (h : groupedNumber text = some n) :
    ∀ c ∈ text, isDigit c = true ∨ c = '_' := by
  rw [groupedNumber, Option.ite_none_right_eq_some, Bool.and_eq_true, List.all_eq_true] at h
  simpa using h.1.1

theorem mem_strip {text : Str} {c : Char} (hc : c ∈ text) (hspace : isSpace c = false) : c ∈ strip text := by
  have hdrop : ∀ s : Str, c ∈ s → c ∈ s.dropWhile isSpace := by
    intro s hs
    rw [← List.takeWhile_append_dropWhile (p := isSpace) (l := s), List.mem_append] at hs
    refine hs.resolve_left fun htake => ?_
    simp [List.mem_takeWhile_imp htake] at hspace
  simp only [strip, lstrip, rstrip, List.mem_reverse]
  exact hdrop _ (List.mem_reverse.2 (hdrop _ hc))

/-- A text with a letter is no number. -/
theorem pyInt_of_letter {text : Str} {c : Char} (hc : c ∈ text) (hspace : isSpace c = false)
    (hdigit : isDigit c = false) (hmark : c ≠ '_' ∧ c ≠ '-' ∧ c ≠ '+') : pyInt text = none := by
  have hnone : ∀ s : Str, c ∈ s → limitedNumber s = none := by
    intro s hs
    cases h : limitedNumber s with
    | none => rfl
    | some n =>
      rw [limitedNumber, Option.ite_none_left_eq_some] at h
      rcases mem_of_groupedNumber h.2 c hs with hd | hu
      · simp [hdigit] at hd
      · exact absurd hu hmark.1
  have hmem := mem_strip hc hspace
  unfold pyInt
  split
  · rename_i digits h
    rw [h] at hmem
    rw [hnone digits ((List.mem_cons.1 hmem).resolve_left hmark.2.1)]
    rfl
  · rename_i digits h
    rw [h] at hmem
    rw [hnone digits ((List.mem_cons.1 hmem).resolve_left hmark.2.2)]
    rfl
  · rw [hnone _ hmem]
    rfl

theorem isSpace_of_isDigit {c : Char} (h : isDigit c = true) : isSpace c = false := by
  simp only [isDigit, Bool.and_eq_true, decide_eq_true_eq, Char.le_def, UInt32.le_iff_toNat_le] at h
  have h48 : ('0' : Char).val.toNat = 48 := rfl
  have h57 : ('9' : Char).val.toNat = 57 := rfl
  have hval : c.toNat = c.val.toNat := rfl
  simp only [isSpace, Bool.or_eq_false_iff, Bool.and_eq_false_iff, decide_eq_false_iff_not, beq_eq_false_iff_ne]
  omega

theorem limitedNumber_digits {text : Str} (hne : text ≠ []) (hdigits : ∀ c ∈ text, isDigit c = true)
    (hshort : text.length ≤ maxStrDigits) : limitedNumber text = some (value text) := by
  have hall : text.all (fun c => isDigit c || c == '_') = true := List.all_eq_true.2 fun c hc => by simp [hdigits c hc]
  have hfree : '_' ∉ text := fun hmem => by cases hdigits '_' hmem
  have hfilter : text.filter (· ≠ '_') = text := List.filter_eq_self.2 fun c hc =>
    decide_eq_true fun heq => hfree (heq ▸ hc)
  have hcount : text.countP isDigit ≤ text.length := List.countP_le_length
  rw [limitedNumber, if_neg (by omega), groupedNumber, hall, List.splitOn_eq_singleton hfree, hfilter]
  simp [hne]

/-- `int` reads digits that are not too many. -/
theorem pyInt_digits {text : Str} (hne : text ≠ []) (hdigits : ∀ c ∈ text, isDigit c = true)
    (hshort : text.length ≤ maxStrDigits) : pyInt text = some (value text : Int) := by
  have hstrip : strip text = text := strip_eq_self
    ⟨fun c hc => isSpace_of_isDigit (hdigits c (List.mem_of_mem_head? hc)),
      fun c hc => isSpace_of_isDigit (hdigits c (List.mem_of_getLast? hc))⟩
  unfold pyInt
  rw [hstrip]
  split
  · cases hdigits '-' List.mem_cons_self
  · cases hdigits '+' List.mem_cons_self
  · rw [limitedNumber_digits hne hdigits hshort]
    rfl

/-- A number of too many digits is refused. -/
theorem pyInt_of_long {text : Str} (hspace : ∀ c ∈ text, isSpace c = false)
    (hlong : maxStrDigits < text.countP isDigit) : pyInt text = none := by
  have hstrip : strip text = text :=
    strip_eq_self ⟨fun c hc => hspace c (List.mem_of_mem_head? hc), fun c hc => hspace c (List.mem_of_getLast? hc)⟩
  have hsign : ∀ {sign : Char} {digits : Str}, isDigit sign = false → text = sign :: digits →
      limitedNumber digits = none := by
    rintro sign digits hdigit rfl
    rw [List.countP_cons_of_neg (by simp [hdigit])] at hlong
    exact if_pos hlong
  unfold pyInt
  rw [hstrip]
  split
  · rw [hsign (by decide) rfl]
    rfl
  · rw [hsign (by decide) rfl]
    rfl
  · rw [limitedNumber, if_pos hlong]
    rfl

/-- Python reads no number. -/
theorem pyInt_isoformat : pyInt d.isoformat = none := by
  refine pyInt_of_letter (c := 'T') ?_ (by decide) (by decide) (by decide)
  refine List.mem_of_getElem? (i := 10) ?_
  rfl

end IsoTime
