import SlurmWeb.Lib.IsoTime

/-!
# Numbers of JavaScript, the integers among them

A number is a double: an integer is rounded to 53 bits, ties to even, and is infinite from 2^1024 on.

* `ofInt_exact`, `add_exact` — up to 2^53 nothing is rounded.
* `parseInt_digits`, `sum_exact` — a text of digits is read, and a list summed up, exactly up to there.
-/

namespace Js

open Strings IsoTime

/-! ## Numbers -/

inductive Number
  | nan
  | infinity (negative : Bool)
  | finite (n : Int)
deriving DecidableEq

/-- The nearest multiple of `2 ^ e`, ties to an even quotient. -/
def roundAt (e n : Nat) : Nat :=
  let quotient := n / 2 ^ e
  let rest := n % 2 ^ e
  (if 2 ^ e < 2 * rest ∨ (2 * rest = 2 ^ e ∧ quotient % 2 = 1) then quotient + 1 else quotient) * 2 ^ e

/-- Rounding to 53 significant bits. -/
def roundNat (n : Nat) : Nat := roundAt (n.log2 - 52) n

/-- The number nearest to an integer. -/
def ofInt (n : Int) : Number :=
  if (roundNat n.natAbs).log2 < 1024 then .finite (if n < 0 then -roundNat n.natAbs else roundNat n.natAbs)
  else .infinity (n < 0)

/-- `a + b` -/
def add : Number → Number → Number
  | .nan, _ | _, .nan => .nan
  | .infinity a, .infinity b => if a = b then .infinity a else .nan
  | .infinity a, .finite _ | .finite _, .infinity a => .infinity a
  | .finite a, .finite b => ofInt (a + b)

/-- `numbers.reduce((total, n) => total + n, 0)` -/
def sum (numbers : List Number) : Number := numbers.foldl add (.finite 0)

/-! ## `parseInt` -/

/-- What `parseInt` trims. -/
def isWhiteSpace (c : Char) : Bool :=
  c.toNat ∈ [9, 10, 11, 12, 13, 0x20, 0xa0, 0x1680, 0x2028, 0x2029, 0x202f, 0x205f, 0x3000, 0xfeff] ||
    (0x2000 ≤ c.toNat && c.toNat ≤ 0x200a)

def hexDigit? (c : Char) : Option Nat :=
  if isDigit c then some (digitValue c)
  else if 97 ≤ c.toNat ∧ c.toNat ≤ 102 then some (c.toNat - 87)
  else if 65 ≤ c.toNat ∧ c.toNat ≤ 70 then some (c.toNat - 55)
  else none

/-- The digits a text starts with. -/
def leadingValue : Str → Option Nat
  | '0' :: 'x' :: digits | '0' :: 'X' :: digits =>
    let hex := (digits.map hexDigit?).takeWhile Option.isSome
    if hex = [] then none else some (hex.foldl (fun n d => 16 * n + d.getD 0) 0)
  | digits => if digits.takeWhile isDigit = [] then none else some (value (digits.takeWhile isDigit))

/-- `parseInt(text)` -/
def parseInt (text : Str) : Number :=
  match text.dropWhile isWhiteSpace with
  | '-' :: digits => ((leadingValue digits).map fun n => ofInt (-n)).getD .nan
  | '+' :: digits => ((leadingValue digits).map fun n => ofInt n).getD .nan
  | digits => ((leadingValue digits).map fun n => ofInt n).getD .nan

/-! ## Exact up to 2^53 -/

theorem roundAt_dvd {e n : Nat} (h : 2 ^ e ∣ n) : roundAt e n = n := by
  have hpos : 0 < 2 ^ e := Nat.two_pow_pos e
  rw [roundAt, Nat.mod_eq_zero_of_dvd h, if_neg (by omega), Nat.div_mul_cancel h]

theorem roundNat_exact {n : Nat} (h : n ≤ 2 ^ 53) : roundNat n = n := by
  rcases h.lt_or_eq with hlt | rfl
  · have hlog : n.log2 - 52 = 0 := by
      rcases Nat.eq_zero_or_pos n with rfl | hpos
      · rfl
      · have := (Nat.log2_lt hpos.ne').2 hlt
        omega
    exact roundAt_dvd (by rw [hlog]; exact one_dvd n)
  · decide

theorem ofInt_exact {n : Nat} (h : n ≤ 2 ^ 53) : ofInt n = .finite n := by
  have hbound : n.log2 < 1024 := by
    rcases Nat.eq_zero_or_pos n with rfl | hpos
    · decide
    · have := (Nat.log2_lt (k := 54) hpos.ne').2 (by omega)
      omega
  rw [ofInt, Int.natAbs_natCast, roundNat_exact h, if_pos hbound, if_neg (by omega)]

theorem add_exact {a b : Nat} (h : a + b ≤ 2 ^ 53) : add (.finite a) (.finite b) = .finite ((a + b : Nat) : Int) :=
  ofInt_exact h

theorem foldl_exact : ∀ {l : List Nat} {a : Nat}, a + l.sum ≤ 2 ^ 53 →
    (l.map fun n : Nat => Number.finite n).foldl add (.finite a) = .finite ((a + l.sum : Nat) : Int)
  | [], _, _ => rfl
  | n :: l, a, h => by
    rw [List.sum_cons] at h
    rw [List.map_cons, List.foldl_cons, add_exact (by omega), foldl_exact (by omega), List.sum_cons, Nat.add_assoc]

theorem sum_exact {l : List Nat} (h : l.sum ≤ 2 ^ 53) :
    sum (l.map fun n : Nat => .finite n) = .finite (l.sum : Nat) := by
  have hfold := @foldl_exact l 0 (by omega)
  rwa [Nat.zero_add] at hfold

theorem leadingValue_digits {digits : Str} (hne : digits ≠ []) (hdigits : ∀ c ∈ digits, isDigit c = true) :
    leadingValue digits = some (value digits) := by
  have hall : digits.takeWhile isDigit = digits := List.takeWhile_eq_self_iff.2 hdigits
  unfold leadingValue
  split
  · cases hdigits 'x' (by simp)
  · cases hdigits 'X' (by simp)
  · rw [hall, if_neg hne]

theorem parseInt_digits {digits : Str} (hne : digits ≠ []) (hdigits : ∀ c ∈ digits, isDigit c = true) :
    parseInt digits = ofInt (value digits) := by
  have htrim : digits.dropWhile isWhiteSpace = digits := by
    obtain ⟨c, digits, rfl⟩ := List.exists_cons_of_ne_nil hne
    refine List.dropWhile_cons_of_neg fun hspace => ?_
    have hrange := hdigits c List.mem_cons_self
    simp only [isDigit, isWhiteSpace, Bool.and_eq_true, Bool.or_eq_true, decide_eq_true_eq, Char.le_def,
      UInt32.le_iff_toNat_le, List.mem_cons, List.not_mem_nil, or_false] at hrange hspace
    have h48 : ('0' : Char).val.toNat = 48 := rfl
    have h57 : ('9' : Char).val.toNat = 57 := rfl
    rw [h48, h57] at hrange
    have hval : c.toNat = c.val.toNat := rfl
    omega
  unfold parseInt
  rw [htrim]
  split
  · cases hdigits '-' (by simp)
  · cases hdigits '+' (by simp)
  · rw [leadingValue_digits hne hdigits]
    rfl

/-! ## Digits with leading zeros -/

theorem value_append (digits : Str) (c : Char) : value (digits ++ [c]) = 10 * value digits + digitValue c := by
  rw [value, List.foldl_append]
  rfl

theorem digitValue_lt {c : Char} (h : isDigit c = true) : digitValue c < 10 ∧ Nat.digitChar (digitValue c) = c := by
  have hall : ∀ k : Fin 10, Nat.digitChar k = Char.ofNat (48 + k) := by decide
  simp only [isDigit, Bool.and_eq_true, decide_eq_true_eq, Char.le_def, UInt32.le_iff_toNat_le] at h
  have h48 : ('0' : Char).val.toNat = 48 := rfl
  have h57 : ('9' : Char).val.toNat = 57 := rfl
  have hval : c.toNat = c.val.toNat := rfl
  have hlt : digitValue c < 10 := by
    rw [digitValue]
    omega
  have hcode : 48 + digitValue c = c.toNat := by
    rw [digitValue]
    omega
  refine ⟨hlt, (hall ⟨digitValue c, hlt⟩).trans ?_⟩
  dsimp only
  rw [hcode, Char.ofNat_toNat]

/-- `String(value).padStart(digits.length, '0')` is the digits. -/
theorem padStart_value {digits : Str} (hne : digits ≠ []) (hdigits : ∀ c ∈ digits, isDigit c = true) :
    (Nat.toDigits 10 (value digits)).leftpad digits.length '0' = digits := by
  induction digits using List.reverseRecOn with
  | nil => exact absurd rfl hne
  | append_singleton digits c ih =>
    obtain ⟨hlt, hchar⟩ := digitValue_lt (hdigits c (by simp))
    rcases eq_or_ne digits [] with rfl | hsome
    · have hvalue : value ([] ++ [c]) = digitValue c := by simp [value]
      rw [hvalue, Nat.toDigits_of_lt_base hlt, hchar]
      rfl
    · have hfront := ih hsome fun d hd => hdigits d (List.mem_append_left _ hd)
      rw [value_append]
      rcases Nat.eq_zero_or_pos (value digits) with hzero | hpos
      · -- nothing but zeros before the last digit
        rw [hzero, Nat.toDigits_zero] at hfront
        have hzeros : List.replicate digits.length '0' = digits := by
          have hlen : digits.length = (digits.length - 1) + 1 := by
            have := List.length_pos_iff.2 hsome
            omega
          rw [hlen, List.replicate_succ']
          exact hfront
        rw [hzero, Nat.mul_zero, Nat.zero_add, Nat.toDigits_of_lt_base hlt, hchar, List.leftpad, List.length_append]
        simpa using hzeros
      · rw [← Nat.toDigits_append_toDigits (by decide) hpos hlt, Nat.toDigits_of_lt_base hlt, hchar]
        nth_rewrite 3 [← hfront]
        simp [List.leftpad]

theorem value_zeros (k : Nat) (digits : Str) : value (List.replicate k '0' ++ digits) = value digits := by
  have hzeros : (List.replicate k '0').foldl (fun n c => 10 * n + digitValue c) 0 = 0 := by
    induction k with
    | zero => rfl
    | succ k ih => rw [List.replicate_succ, List.foldl_cons]; exact ih
  rw [value, List.foldl_append, hzeros]
  rfl

/-- The number of `String(n).padStart(width, '0')`, a text of digits. -/
theorem value_padStart (width n : Nat) : value ((Nat.toDigits 10 n).leftpad width '0') = n :=
  (value_zeros _ _).trans Nat.ofDigitChars_ten_toDigits

theorem padStart_ne_nil (width n : Nat) : (Nat.toDigits 10 n).leftpad width '0' ≠ [] := by
  simp [List.leftpad, Nat.toDigits_ne_nil]

theorem padStart_digits {width n : Nat} : ∀ c ∈ (Nat.toDigits 10 n).leftpad width '0', isDigit c = true := by
  intro c hc
  rcases List.mem_append.1 hc with hc | hc
  · rw [(List.mem_replicate.1 hc).2]
    rfl
  · exact Nat.isDigit_of_mem_toDigits (by decide) (by decide) hc

end Js
