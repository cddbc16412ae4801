import SlurmWeb.Lib.IsoTime

/-!
# Times in UTC

The datetime in UTC of a number of microseconds since the epoch, and the order of such datetimes and of
their ISO 8601 texts.

* `fromMicroseconds_eq_some` — a number between the years 1 and 9999 is the instant of a datetime.
* `isoformat_le_iff` — texts are in the order of the instants, with or without a fraction of a second.
-/

namespace IsoTime

open Strings

/-! ## Days -/

/-- The days before a year. -/
def daysBeforeYear (year : Nat) : Nat := 365 * (year - 1) + (year - 1) / 4 - (year - 1) / 100 + (year - 1) / 400

def daysInYear (year : Nat) : Nat := if isLeap year then 366 else 365

theorem daysBeforeYear_succ {year : Nat} (h : 1 ≤ year) :
    daysBeforeYear (year + 1) = daysBeforeYear year + daysInYear year := by
  obtain ⟨y, rfl⟩ : ∃ y, year = y + 1 := ⟨year - 1, by omega⟩
  have hfour : (y + 1) / 4 = y / 4 + if (y + 1) % 4 = 0 then 1 else 0 := by split <;> omega
  have hcentury : (y + 1) / 100 = y / 100 + if (y + 1) % 100 = 0 then 1 else 0 := by split <;> omega
  have hcycle : (y + 1) / 400 = y / 400 + if (y + 1) % 400 = 0 then 1 else 0 := by split <;> omega
  have hle : y / 100 ≤ y / 4 := Nat.div_le_div_left (by decide) (by decide)
  have hleap : isLeap (y + 1) = true ↔ (y + 1) % 4 = 0 ∧ ((y + 1) % 100 ≠ 0 ∨ (y + 1) % 400 = 0) := by
    simp [isLeap]
  simp only [daysBeforeYear, daysInYear, Nat.add_sub_cancel, hleap, hfour, hcentury, hcycle]
  have hdvd : (y + 1) % 400 = 0 → (y + 1) % 100 = 0 := by omega
  have hdvd' : (y + 1) % 100 = 0 → (y + 1) % 4 = 0 := by omega
  generalize y / 4 = a at *
  generalize y / 100 = b at *
  generalize y / 400 = c at *
  by_cases h4 : (y + 1) % 4 = 0
  · by_cases h100 : (y + 1) % 100 = 0
    · by_cases h400 : (y + 1) % 400 = 0
      · simp only [h4, h100, h400, if_true, true_and, or_true]
        omega
      · simp only [h4, h100, h400, if_true, if_false, true_and, not_true_eq_false, ne_eq, or_self]
        omega
    · have h400 : ¬ (y + 1) % 400 = 0 := fun h => h100 (hdvd h)
      simp only [h4, h100, h400, if_true, if_false, true_and, not_false_eq_true, ne_eq, true_or]
      omega
  · have h100 : ¬ (y + 1) % 100 = 0 := fun h => h4 (hdvd' h)
    have h400 : ¬ (y + 1) % 400 = 0 := fun h => h100 (hdvd h)
    simp only [h4, h100, h400, if_false, false_and]
    omega

theorem daysBeforeYear_mono {a b : Nat} (ha : 1 ≤ a) (hab : a < b) :
    daysBeforeYear a + daysInYear a ≤ daysBeforeYear b := by
  induction b, hab using Nat.le_induction with
  | base => rw [daysBeforeYear_succ ha]
  | succ b hb ih =>
    rw [daysBeforeYear_succ (by omega)]
    omega

/-- The months of a year follow each other. -/
theorem daysBeforeMonth_mono {year a b : Nat} (ha : 1 ≤ a) (hab : a < b) (hb : b ≤ 12) :
    daysBeforeMonth year a + daysInMonth year a ≤ daysBeforeMonth year b := by
  have hall : ∀ leap : Bool, ∀ b ≤ 12, ∀ a < b, 1 ≤ a →
      ([0, 31, 59, 90, 120, 151, 181, 212, 243, 273, 304, 334].getD (a - 1) 0 + if 2 < a && leap then 1 else 0) +
        [31, if leap then 29 else 28, 31, 30, 31, 30, 31, 31, 30, 31, 30, 31].getD (a - 1) 0 ≤
      [0, 31, 59, 90, 120, 151, 181, 212, 243, 273, 304, 334].getD (b - 1) 0 + if 2 < b && leap then 1 else 0 := by
    decide
  exact hall (isLeap year) b hb a hab ha

theorem dayOfYear_le {year month day : Nat} (hmonth : 1 ≤ month ∧ month ≤ 12) (hday : day ≤ daysInMonth year month) :
    daysBeforeMonth year month + day ≤ daysInYear year := by
  have hall : ∀ leap : Bool, ∀ month ≤ 12, 1 ≤ month →
      ([0, 31, 59, 90, 120, 151, 181, 212, 243, 273, 304, 334].getD (month - 1) 0 + if 2 < month &&
        leap then 1 else 0) +
        [31, if leap then 29 else 28, 31, 30, 31, 30, 31, 31, 30, 31, 30, 31].getD (month - 1) 0 ≤
      if leap then 366 else 365 := by
    decide
  have hlast : daysBeforeMonth year month + daysInMonth year month ≤ daysInYear year :=
    hall (isLeap year) month hmonth.2 hmonth.1
  omega

/-- The month of a day of the year, counted from 0. -/
def monthOf (leap : Bool) (day : Nat) : Nat :=
  ([0, 31, 59, 90, 120, 151, 181, 212, 243, 273, 304, 334].zipIdx.filter fun p =>
    decide (p.1 + (if 2 < p.2 + 1 && leap then 1 else 0) ≤ day)).length

theorem monthOf_spec {year day : Nat} (h : day < daysInYear year) :
    1 ≤ monthOf (isLeap year) day ∧ monthOf (isLeap year) day ≤ 12 ∧
      daysBeforeMonth year (monthOf (isLeap year) day) ≤ day ∧
      day - daysBeforeMonth year (monthOf (isLeap year) day) < daysInMonth year (monthOf (isLeap year) day) := by
  have hall : ∀ leap : Bool, ∀ day < if leap then 366 else 365, 1 ≤ monthOf leap day ∧ monthOf leap day ≤ 12 ∧
      ([0, 31, 59, 90, 120, 151, 181, 212, 243, 273, 304, 334].getD (monthOf leap day - 1) 0 +
        if 2 < monthOf leap day && leap then 1 else 0) ≤ day ∧
      day - ([0, 31, 59, 90, 120, 151, 181, 212, 243, 273, 304, 334].getD (monthOf leap day - 1) 0 +
        if 2 < monthOf leap day && leap then 1 else 0) <
        [31, if leap then 29 else 28, 31, 30, 31, 30, 31, 31, 30, 31, 30, 31].getD (monthOf leap day - 1) 0 := by
    decide +kernel
  exact hall (isLeap year) day h

/-- The year of a day number, and the days before it in that year. -/
def yearOf (n : Nat) : Nat × Nat :=
  let days := n - 1
  let centuries := min (days % 146097 / 36524) 3
  let rest := days % 146097 - 36524 * centuries
  let years := min (rest % 1461 / 365) 3
  (400 * (days / 146097) + 100 * centuries + 4 * (rest / 1461) + years + 1, rest % 1461 - 365 * years)

/-- The fourth year of a cycle is a leap year, but for three centuries in four. -/
theorem isLeap_cycle {q c f y : Nat} (hc : c ≤ 3) (hf : f ≤ 24) (hy : y ≤ 3) :
    isLeap (400 * q + 100 * c + 4 * f + y + 1) = true ↔ y = 3 ∧ (f = 24 → c = 3) := by
  have hfour : (400 * q + 100 * c + 4 * f + y + 1) % 4 = 0 ↔ y = 3 := by omega
  have hhundred : (400 * q + 100 * c + 4 * f + y + 1) % 100 = 0 ↔ f = 24 ∧ y = 3 := by omega
  have hcycle : (400 * q + 100 * c + 4 * f + y + 1) % 400 = 0 ↔ c = 3 ∧ f = 24 ∧ y = 3 := by omega
  simp only [isLeap, Bool.and_eq_true, Bool.or_eq_true, beq_iff_eq, bne_iff_ne, ne_eq, hfour, hhundred, hcycle]
  tauto

theorem yearOf_spec {n : Nat} (h : 1 ≤ n) :
    n = daysBeforeYear (yearOf n).1 + (yearOf n).2 + 1 ∧ (yearOf n).2 < daysInYear (yearOf n).1 := by
  obtain ⟨days, rfl⟩ : ∃ d, n = d + 1 := ⟨n - 1, by omega⟩
  simp only [yearOf, Nat.add_sub_cancel]
  have hcentury : days % 146097 - 36524 * min (days % 146097 / 36524) 3 < 36525 ∧
      (min (days % 146097 / 36524) 3 < 3 → days % 146097 - 36524 * min (days % 146097 / 36524) 3 < 36524) := by omega
  have hcenturies : 36524 * min (days % 146097 / 36524) 3 ≤ days % 146097 := by omega
  have hthree : min (days % 146097 / 36524) 3 ≤ 3 := by omega
  have hdays := Nat.div_add_mod days 146097
  generalize min (days % 146097 / 36524) 3 = c at *
  generalize days / 146097 = q at *
  generalize hrest : days % 146097 - 36524 * c = rest at *
  have hyears : 365 * min (rest % 1461 / 365) 3 ≤ rest % 1461 := by omega
  have hyear : rest % 1461 - 365 * min (rest % 1461 / 365) 3 < 366 ∧
      (min (rest % 1461 / 365) 3 < 3 → rest % 1461 - 365 * min (rest % 1461 / 365) 3 < 365) := by omega
  have hle : min (rest % 1461 / 365) 3 ≤ 3 := by omega
  have hmod := Nat.div_add_mod rest 1461
  generalize min (rest % 1461 / 365) 3 = y at *
  generalize rest / 1461 = f at *
  generalize hday : rest % 1461 - 365 * y = day at *
  have hf : f ≤ 24 := by omega
  have hfour : (400 * q + 100 * c + 4 * f + y) / 4 = 100 * q + 25 * c + f := by omega
  have hhundred : (400 * q + 100 * c + 4 * f + y) / 100 = 4 * q + c := by omega
  have hcycle : (400 * q + 100 * c + 4 * f + y) / 400 = q := by omega
  refine ⟨?_, ?_⟩
  · rw [daysBeforeYear, Nat.add_sub_cancel, hfour, hhundred, hcycle]
    omega
  · rw [daysInYear]
    split
    · omega
    · rename_i hnot
      rw [isLeap_cycle hthree hf hle] at hnot
      omega

theorem yearOf_le {n : Nat} (h : 1 ≤ n) (hle : n ≤ 3652059) : 1 ≤ (yearOf n).1 ∧ (yearOf n).1 ≤ 9999 := by
  obtain ⟨hn, -⟩ := yearOf_spec h
  refine ⟨by simp [yearOf], ?_⟩
  by_contra hlate
  have hbefore : daysBeforeYear 10000 ≤ daysBeforeYear (yearOf n).1 := by
    rcases Nat.eq_or_lt_of_le (show 10000 ≤ (yearOf n).1 by omega) with heq | hlt
    · rw [← heq]
    · have hmono := daysBeforeYear_mono (by decide) hlt
      omega
  have hlast : daysBeforeYear 10000 = 3652059 := by decide
  omega

theorem ordinal_eq (year month day : Nat) :
    ordinal year month day = daysBeforeYear year + daysBeforeMonth year month + day := rfl

/-! ## Instants -/

/-- `datetime.fromtimestamp(.., tz=timezone.utc)`, of microseconds; `none` is a year out of range. -/
def fromMicroseconds (n : Int) : Option Datetime :=
  let seconds := n / 1000000
  let days := seconds / 86400 + 719163
  let rest := (seconds % 86400).toNat
  if h : 1 ≤ days ∧ days ≤ 3652059 then
    have hpos : 1 ≤ days.toNat := by omega
    have hle : days.toNat ≤ 3652059 := by omega
    have hmonth := monthOf_spec (yearOf_spec hpos).2
    some {
      year := (yearOf days.toNat).1
      month := monthOf (isLeap (yearOf days.toNat).1) (yearOf days.toNat).2
      day := (yearOf days.toNat).2 -
        daysBeforeMonth (yearOf days.toNat).1 (monthOf (isLeap (yearOf days.toNat).1) (yearOf days.toNat).2) + 1
      hour := rest / 3600
      minute := rest % 3600 / 60
      second := rest % 60
      microsecond := (n % 1000000).toNat
      offset := 0
      year_le := yearOf_le hpos hle
      month_le := ⟨hmonth.1, hmonth.2.1⟩
      day_le := ⟨Nat.le_add_left _ _, hmonth.2.2.2⟩
      hour_lt := by omega
      minute_lt := by omega
      second_lt := by omega
      microsecond_lt := by omega
      offset_lt := utc_lt
    }
  else none

/-- The instants of the years 1 to 9999. -/
def InRange (n : Int) : Prop := -62135596800000000 ≤ n ∧ n < 253402300800000000

instance (n : Int) : Decidable (InRange n) := inferInstanceAs (Decidable (_ ∧ _))

theorem fromMicroseconds_isSome {n : Int} : (fromMicroseconds n).isSome = true ↔ InRange n := by
  have hdays : (1 ≤ n / 1000000 / 86400 + 719163 ∧ n / 1000000 / 86400 + 719163 ≤ 3652059) ↔ InRange n := by
    rw [InRange]
    omega
  rw [← hdays, fromMicroseconds]
  split
  · rename_i h
    exact iff_of_true rfl h
  · rename_i h
    exact iff_of_false (by simp) h

theorem fromMicroseconds_eq_some {n : Int} {d : Datetime} (h : fromMicroseconds n = some d) :
    d.instant = n ∧ d.offset = 0 := by
  rw [fromMicroseconds] at h
  split at h
  · rename_i hdays
    cases h
    refine ⟨?_, rfl⟩
    have hpos : 1 ≤ (n / 1000000 / 86400 + 719163).toNat := by omega
    obtain ⟨hyear, hlt⟩ := yearOf_spec hpos
    obtain ⟨-, -, hle, -⟩ := monthOf_spec hlt
    simp only [Datetime.instant, utcSeconds, ordinal_eq]
    generalize daysBeforeMonth (yearOf (n / 1000000 / 86400 + 719163).toNat).1
      (monthOf (isLeap (yearOf (n / 1000000 / 86400 + 719163).toNat).1)
        (yearOf (n / 1000000 / 86400 + 719163).toNat).2) = before at *
    generalize daysBeforeYear (yearOf (n / 1000000 / 86400 + 719163).toNat).1 = years at *
    generalize (yearOf (n / 1000000 / 86400 + 719163).toNat).2 = day at *
    omega
  · cases h

theorem ordinal_pos (d : Datetime) : 1 ≤ ordinal d.year d.month d.day := by
  have hday := d.day_le.1
  rw [ordinal_eq]
  omega

theorem ordinal_le (d : Datetime) : ordinal d.year d.month d.day ≤ 3652059 := by
  have hday := dayOfYear_le d.month_le d.day_le.2
  have hyear : d.year < 10000 := Nat.lt_succ_of_le d.year_le.2
  have hmono := daysBeforeYear_mono d.year_le.1 hyear
  have hlast : daysBeforeYear 10000 = 3652059 := by decide
  rw [ordinal_eq]
  omega

theorem instant_inRange {d : Datetime} (h : d.offset = 0) : InRange d.instant := by
  have hpos := ordinal_pos d
  have hle := ordinal_le d
  have hhour := d.hour_lt
  have hminute := d.minute_lt
  have hsecond := d.second_lt
  have hmicrosecond := d.microsecond_lt
  rw [InRange, Datetime.instant, utcSeconds, h]
  generalize ordinal d.year d.month d.day = n at *
  omega

/-! ## Order -/

theorem digit_lt {a b : Nat} : digit a < digit b ↔ a % 10 < b % 10 := by
  have hall : ∀ a b : Fin 10, Char.ofNat (48 + a) < Char.ofNat (48 + b) ↔ a.val < b.val := by decide
  exact hall ⟨a % 10, Nat.mod_lt _ (by decide)⟩ ⟨b % 10, Nat.mod_lt _ (by decide)⟩

theorem digit_inj {a b : Nat} : digit a = digit b ↔ a % 10 = b % 10 := by
  have hall : ∀ a b : Fin 10, Char.ofNat (48 + a) = Char.ofNat (48 + b) ↔ a.val = b.val := by decide
  exact hall ⟨a % 10, Nat.mod_lt _ (by decide)⟩ ⟨b % 10, Nat.mod_lt _ (by decide)⟩

variable {a b : Nat} {s t : Str}

theorem cons_le_cons {c d : Char} : c :: s ≤ d :: t ↔ c < d ∨ c = d ∧ s ≤ t := by
  rw [← not_lt, ← not_lt, List.cons_lt_cons_iff, not_or, not_lt, not_and]
  constructor
  · rintro ⟨hle, h⟩
    rcases lt_or_eq_of_le hle with hlt | heq
    · exact .inl hlt
    · exact .inr ⟨heq, h heq.symm⟩
  · rintro (hlt | ⟨rfl, h⟩)
    · exact ⟨hlt.le, fun heq => absurd heq hlt.ne'⟩
    · exact ⟨le_rfl, fun _ => h⟩

theorem digit_append_le : digit a :: s ≤ digit b :: t ↔ a % 10 < b % 10 ∨ a % 10 = b % 10 ∧ s ≤ t := by
  rw [cons_le_cons, digit_lt, digit_inj]

/-- One more digit. -/
theorem digit_step {P : Prop} :
    (a / 10 < b / 10 ∨ a / 10 = b / 10 ∧ (a % 10 < b % 10 ∨ a % 10 = b % 10 ∧ P)) ↔ a < b ∨ a = b ∧ P := by
  by_cases h : P <;> simp only [h, and_true, and_false, or_false] <;> omega

theorem pad2_append_le (ha : a < 100) (hb : b < 100) : pad2 a ++ s ≤ pad2 b ++ t ↔ a < b ∨ a = b ∧ s ≤ t := by
  have hfirst : a / 10 % 10 = a / 10 ∧ b / 10 % 10 = b / 10 := by omega
  simp only [pad2, List.cons_append, List.nil_append, digit_append_le, hfirst, digit_step]

theorem pad4_append_le (ha : a < 10000) (hb : b < 10000) : pad4 a ++ s ≤ pad4 b ++ t ↔ a < b ∨ a = b ∧ s ≤ t := by
  have hfirst : a / 1000 % 10 = a / 100 / 10 ∧ b / 1000 % 10 = b / 100 / 10 := by omega
  have hsecond : a / 100 = a / 10 / 10 ∧ b / 100 = b / 10 / 10 := by omega
  simp only [pad4, List.cons_append, List.nil_append, digit_append_le, hfirst, digit_step]
  simp only [hsecond, digit_step]

theorem pad6_append_le (ha : a < 1000000) (hb : b < 1000000) : pad6 a ++ s ≤ pad6 b ++ t ↔ a < b ∨ a = b ∧ s ≤ t := by
  have hfirst : a / 100000 % 10 = a / 10000 / 10 ∧ b / 100000 % 10 = b / 10000 / 10 := by omega
  have hsecond : a / 10000 = a / 1000 / 10 ∧ b / 10000 = b / 1000 / 10 := by omega
  have hthird : a / 1000 = a / 100 / 10 ∧ b / 1000 = b / 100 / 10 := by omega
  have hfourth : a / 100 = a / 10 / 10 ∧ b / 100 = b / 10 / 10 := by omega
  simp only [pad6, List.cons_append, List.nil_append, digit_append_le, hfirst, digit_step]
  simp only [hsecond, digit_step]
  simp only [hthird, digit_step]
  simp only [hfourth, digit_step]

theorem mark_append_le {c : Char} : c :: s ≤ c :: t ↔ s ≤ t := by
  rw [cons_le_cons]
  simp

/-- The fraction of a second in a text, before an offset from UTC that is not negative. -/
theorem fraction_append_le (ha : a < 1000000) (hb : b < 1000000) (zone : Str) :
    (if a = 0 then [] else '.' :: pad6 a) ++ '+' :: zone ≤ (if b = 0 then [] else '.' :: pad6 b) ++
      '+' :: zone ↔ a ≤ b := by
  have hmark : '+' < '.' := by decide
  by_cases hzero : a = 0
  · by_cases hzero' : b = 0
    · simp [hzero, hzero']
    · rw [if_pos hzero, if_neg hzero', List.nil_append, List.cons_append, cons_le_cons]
      exact iff_of_true (.inl hmark) (by omega)
  · by_cases hzero' : b = 0
    · rw [if_neg hzero, if_pos hzero', List.nil_append, List.cons_append, cons_le_cons]
      refine iff_of_false ?_ (by omega)
      rintro (hlt | ⟨heq, -⟩)
      · exact absurd hmark hlt.asymm
      · exact absurd heq hmark.ne'
    · rw [if_neg hzero, if_neg hzero', List.cons_append, List.cons_append, mark_append_le, pad6_append_le ha hb]
      simp only [le_refl, and_true]
      omega

/-- Dates are in the order of year, month and day. -/
theorem ordinal_lt_iff (d e : Datetime) {P : Prop} :
    (d.year < e.year ∨ d.year = e.year ∧
      (d.month < e.month ∨ d.month = e.month ∧ (d.day < e.day ∨ d.day = e.day ∧ P))) ↔
      ordinal d.year d.month d.day < ordinal e.year e.month e.day ∨
        ordinal d.year d.month d.day = ordinal e.year e.month e.day ∧ P := by
  have hlt : ∀ d e : Datetime, d.year < e.year → ordinal d.year d.month d.day < ordinal e.year e.month e.day := by
    intro d e h
    have hmono := daysBeforeYear_mono d.year_le.1 h
    have hday := dayOfYear_le d.month_le d.day_le.2
    have hpos := e.day_le.1
    rw [ordinal_eq, ordinal_eq]
    omega
  have hmonth : ∀ d e : Datetime, d.year = e.year → d.month < e.month →
      ordinal d.year d.month d.day < ordinal e.year e.month e.day := by
    intro d e hyear h
    have hmono := @daysBeforeMonth_mono e.year _ _ d.month_le.1 h e.month_le.2
    have hday := d.day_le.2
    have hpos := e.day_le.1
    rw [hyear] at hday
    rw [ordinal_eq, ordinal_eq, hyear]
    omega
  rcases Nat.lt_trichotomy d.year e.year with h | h | h
  · exact iff_of_true (.inl h) (.inl (hlt d e h))
  · rcases Nat.lt_trichotomy d.month e.month with h' | h' | h'
    · exact iff_of_true (.inr ⟨h, .inl h'⟩) (.inl (hmonth d e h h'))
    · rw [ordinal_eq, ordinal_eq, h, h']
      simp
    · have hafter := hmonth e d h.symm h'
      constructor
      · rintro (hyear | ⟨-, hlater | ⟨heq, -⟩⟩) <;> omega
      · rintro (hearlier | ⟨heq, -⟩) <;> omega
  · have hafter := hlt e d h
    constructor
    · rintro (hyear | ⟨heq, -⟩) <;> omega
    · rintro (hearlier | ⟨heq, -⟩) <;> omega

/-- **Texts in UTC are in the order of the instants.** -/
theorem isoformat_le_iff {d e : Datetime} (hd : d.offset = 0) (he : e.offset = 0) :
    d.isoformat ≤ e.isoformat ↔ d.instant ≤ e.instant := by
  have hyear : d.year < 10000 ∧ e.year < 10000 := ⟨by have := d.year_le; omega, by have := e.year_le; omega⟩
  have hmonth : d.month < 100 ∧ e.month < 100 := ⟨by have := d.month_le; omega, by have := e.month_le; omega⟩
  have hday : d.day < 100 ∧ e.day < 100 := ⟨by have := month_day_le d; omega, by have := month_day_le e; omega⟩
  have hhour : d.hour < 24 ∧ e.hour < 24 := ⟨d.hour_lt, e.hour_lt⟩
  have hminute : d.minute < 60 ∧ e.minute < 60 := ⟨d.minute_lt, e.minute_lt⟩
  have hsecond : d.second < 60 ∧ e.second < 60 := ⟨d.second_lt, e.second_lt⟩
  have hmicro : d.microsecond < 1000000 ∧ e.microsecond < 1000000 := ⟨d.microsecond_lt, e.microsecond_lt⟩
  simp only [Datetime.isoformat, hd, he, lt_irrefl, if_false, List.append_assoc, List.cons_append, mark_append_le,
    pad4_append_le hyear.1 hyear.2, pad2_append_le hmonth.1 hmonth.2, pad2_append_le hday.1 hday.2,
    pad2_append_le (hhour.1.trans (by decide)) (hhour.2.trans (by decide)),
    pad2_append_le (hminute.1.trans (by decide)) (hminute.2.trans (by decide)),
    pad2_append_le (hsecond.1.trans (by decide)) (hsecond.2.trans (by decide)),
    fraction_append_le hmicro.1 hmicro.2, ordinal_lt_iff, Datetime.instant, utcSeconds]
  generalize ordinal d.year d.month d.day = n
  generalize ordinal e.year e.month e.day = m
  omega

end IsoTime
