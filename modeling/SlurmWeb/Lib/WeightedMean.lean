import Mathlib

/-!
# Weighted means

A mean that is built up one value at a time: a total and the weight it is of. A value that is missing adds
nothing to either. Sums of these are means over all their values.

* `of_avg` — a mean, merged as one value with its own weight, merges all its values.
* `of_sum_avg` — merged with the weight of all values, those that are missing are taken at the mean.
* `avg_add_iff` — another mean that is merged keeps the mean only when it is the same mean.
* `abs_avg_sub_le` — means of values that are close are close.
-/

namespace WeightedMean

variable {K : Type}

@[ext] structure Mean (K : Type) where
  total : K
  weight : Int
deriving DecidableEq

namespace Mean

variable [Field K]

instance : Zero (Mean K) := ⟨⟨0, 0⟩⟩

instance : Add (Mean K) := ⟨fun m n => ⟨m.total + n.total, m.weight + n.weight⟩⟩

@[simp] theorem zero_total : (0 : Mean K).total = 0 := rfl

@[simp] theorem zero_weight : (0 : Mean K).weight = 0 := rfl

@[simp] theorem add_total (m n : Mean K) : (m + n).total = m.total + n.total := rfl

@[simp] theorem add_weight (m n : Mean K) : (m + n).weight = m.weight + n.weight := rfl

instance : AddCommMonoid (Mean K) where
  add_assoc m n o := by ext <;> simp [add_assoc]
  zero_add m := by ext <;> simp
  add_zero m := by ext <;> simp
  add_comm m n := by ext <;> simp [add_comm]
  nsmul := nsmulRec

/-- A value with a weight. -/
def of (weight : Int) : Option K → Mean K
  | none => 0
  | some value => ⟨value * weight, weight⟩

@[simp] theorem of_none (weight : Int) : of weight (none : Option K) = 0 := rfl

def avg (m : Mean K) : Option K := if m.weight ≤ 0 then none else some (m.total / m.weight)

@[simp] theorem avg_zero : (0 : Mean K).avg = none := rfl

theorem avg_of_pos {m : Mean K} (h : 0 < m.weight) : m.avg = some (m.total / m.weight) := if_neg (not_le.2 h)

/-- The sum of values with weights. -/
def ofList (l : List (Int × Option K)) : Mean K := (l.map fun p => of p.1 p.2).sum

@[simp] theorem ofList_nil : ofList ([] : List (Int × Option K)) = 0 := rfl

@[simp] theorem ofList_cons (p : Int × Option K) (l : List (Int × Option K)) :
    ofList (p :: l) = of p.1 p.2 + ofList l := rfl

variable {l : List (Int × Option K)}

theorem ofList_none (h : ∀ p ∈ l, p.2 = none) : ofList l = 0 := by
  induction l with
  | nil => rfl
  | cons p l ih =>
    rw [ofList_cons, h p List.mem_cons_self, ih fun q hq => h q (List.mem_cons_of_mem _ hq)]
    exact zero_add 0

theorem weight_nonneg (h : ∀ p ∈ l, 0 < p.1) : 0 ≤ (ofList l).weight := by
  induction l with
  | nil => exact le_rfl
  | cons p l ih =>
    have hrest := ih fun q hq => h q (List.mem_cons_of_mem _ hq)
    have hp := h p List.mem_cons_self
    rw [ofList_cons, add_weight]
    cases p.2 with
    | none => simpa using hrest
    | some value => exact add_nonneg hp.le hrest

theorem weight_pos_iff (h : ∀ p ∈ l, 0 < p.1) : 0 < (ofList l).weight ↔ ∃ p ∈ l, p.2 ≠ none := by
  induction l with
  | nil => simp
  | cons p l ih =>
    have hrest : ∀ q ∈ l, 0 < q.1 := fun q hq => h q (List.mem_cons_of_mem _ hq)
    have hp := h p List.mem_cons_self
    rw [ofList_cons, add_weight]
    cases hvalue : p.2 with
    | none => simp [hvalue, ih hrest]
    | some value =>
      have hnonneg := weight_nonneg hrest
      have hweight : (of p.1 (some value)).weight = p.1 := rfl
      exact iff_of_true (by omega) ⟨p, List.mem_cons_self, by simp [hvalue]⟩

/-- A mean of equal values. -/
theorem total_of_const {x : K} (h : ∀ p ∈ l, ∀ value ∈ p.2, value = x) : (ofList l).total = x * (ofList l).weight := by
  induction l with
  | nil => simp
  | cons p l ih =>
    rw [ofList_cons, add_total, add_weight, ih fun q hq => h q (List.mem_cons_of_mem _ hq)]
    have hp := h p List.mem_cons_self
    cases hvalue : p.2 with
    | none => simp
    | some value =>
      rw [hp value hvalue, of]
      push_cast
      ring

/-- The weight of the values that are missing. -/
def missing (l : List (Int × Option K)) : Int := ((l.filter fun p => p.2.isNone).map Prod.fst).sum

omit [Field K] in
theorem missing_cons (p : Int × Option K) (l : List (Int × Option K)) :
    missing (p :: l) = (if p.2.isNone then p.1 else 0) + missing l := by
  rw [missing, List.filter_cons]
  cases p.2 with
  | none => rfl
  | some value => exact (zero_add _).symm

theorem weight_add_missing : (ofList l).weight + missing l = (l.map Prod.fst).sum := by
  induction l with
  | nil => rfl
  | cons p l ih =>
    rw [ofList_cons, add_weight, missing_cons, List.map_cons, List.sum_cons, ← ih]
    cases p.2 with
    | none =>
      simp only [of_none, zero_weight, Option.isNone_none, if_true]
      ring
    | some value =>
      simp only [of, Option.isNone_some, Bool.false_eq_true, if_false]
      ring

theorem of_add (weight weight' : Int) (value : Option K) :
    of (weight + weight') value = of weight value + of weight' value := by
  cases value with
  | none => exact (zero_add _).symm
  | some value =>
    ext
    · simp only [of, add_total, Int.cast_add, mul_add]
    · rfl

theorem sum_of (weights : List Int) (value : Option K) :
    (weights.map fun weight => of weight value).sum = of weights.sum value := by
  induction weights with
  | nil =>
    cases value with
    | none => rfl
    | some value =>
      ext
      · exact ((congrArg (value * ·) Int.cast_zero).trans (mul_zero value)).symm
      · rfl
  | cons weight weights ih => rw [List.map_cons, List.sum_cons, List.sum_cons, ih, of_add]

section
variable [LinearOrder K] [IsStrictOrderedRing K]

theorem cast_weight_pos {m : Mean K} (h : 0 < m.weight) : (0 : K) < m.weight := Int.cast_pos.2 h

/-- **A mean, merged as one value with its own weight, merges all its values.** -/
theorem of_avg {m : Mean K} (h : 0 < m.weight) : of m.weight m.avg = m := by
  rw [avg_of_pos h, of, div_mul_cancel₀ _ (cast_weight_pos h).ne']

theorem avg_of_const {x : K} (h : ∀ p ∈ l, ∀ value ∈ p.2, value = x) (hpos : 0 < (ofList l).weight) :
    (ofList l).avg = some x := by
  rw [avg_of_pos hpos, total_of_const h, mul_div_cancel_right₀ _ (cast_weight_pos hpos).ne']

/-- A value joined with some weight keeps the mean only when it is the mean. -/
theorem avg_add_of {m : Mean K} (h : 0 < m.weight) {weight : Int} (hweight : 0 < weight) {x : K} :
    (m + of weight (some x)).avg = m.avg ↔ m.avg = some x := by
  have hsum : 0 < (m + of weight (some x)).weight := add_pos h hweight
  rw [avg_of_pos hsum, avg_of_pos h, Option.some_inj, Option.some_inj,
    div_eq_div_iff (cast_weight_pos hsum).ne' (cast_weight_pos h).ne', div_eq_iff (cast_weight_pos h).ne']
  have hw : (weight : K) ≠ 0 := (Int.cast_pos.2 hweight).ne'
  simp only [add_total, add_weight, of, Int.cast_add]
  constructor
  · intro heq
    have hcancel : (weight : K) * m.total = weight * (x * m.weight) := by linear_combination -heq
    exact mul_left_cancel₀ hw hcancel
  · intro heq
    linear_combination -(weight : K) * heq

/-- Another mean that is merged keeps the mean only when it is the same mean. -/
theorem avg_add_iff {m n : Mean K} (h : 0 < m.weight) (hn : 0 < n.weight) : (m + n).avg = m.avg ↔ m.avg = n.avg := by
  have hsplit := avg_add_of h hn (x := n.total / n.weight)
  rwa [← avg_of_pos hn, of_avg hn] at hsplit

/-- **Merged with the weight of all values, those that are missing are taken at the mean.** -/
theorem of_sum_avg (h : ∀ p ∈ l, 0 < p.1) :
    of (l.map Prod.fst).sum (ofList l).avg = ofList l + of (missing l) (ofList l).avg := by
  rw [← weight_add_missing, of_add]
  by_cases hpos : 0 < (ofList l).weight
  · rw [of_avg hpos]
  · have hnone : ofList l = 0 := ofList_none fun p hp => by
      by_contra hvalue
      exact hpos ((weight_pos_iff h).2 ⟨p, hp, hvalue⟩)
    rw [hnone]
    rfl

theorem total_nonneg (h : ∀ p ∈ l, 0 < p.1) (hvalues : ∀ p ∈ l, ∀ value ∈ p.2, 0 < value) : 0 ≤ (ofList l).total := by
  induction l with
  | nil => exact le_rfl
  | cons p l ih =>
    have hrest := ih (fun q hq => h q (List.mem_cons_of_mem _ hq)) fun q hq => hvalues q (List.mem_cons_of_mem _ hq)
    rw [ofList_cons, add_total]
    cases hvalue : p.2 with
    | none => simpa using hrest
    | some value =>
      have hweight : (0 : K) ≤ p.1 := Int.cast_nonneg (h p List.mem_cons_self).le
      exact add_nonneg (mul_nonneg (hvalues p List.mem_cons_self value hvalue).le hweight) hrest

theorem total_pos (h : ∀ p ∈ l, 0 < p.1) (hvalues : ∀ p ∈ l, ∀ value ∈ p.2, 0 < value) (hpos : 0 < (ofList l).weight) :
    0 < (ofList l).total := by
  induction l with
  | nil => simp at hpos
  | cons p l ih =>
    have hrest : ∀ q ∈ l, 0 < q.1 := fun q hq => h q (List.mem_cons_of_mem _ hq)
    have hvrest : ∀ q ∈ l, ∀ value ∈ q.2, 0 < value := fun q hq => hvalues q (List.mem_cons_of_mem _ hq)
    rw [ofList_cons, add_total]
    cases hvalue : p.2 with
    | none =>
      rw [of_none, zero_total, zero_add]
      rw [ofList_cons, hvalue, of_none, zero_add] at hpos
      exact ih hrest hvrest hpos
    | some value =>
      exact add_pos_of_pos_of_nonneg
        (mul_pos (hvalues p List.mem_cons_self value hvalue) (Int.cast_pos.2 (h p List.mem_cons_self)))
          (total_nonneg hrest hvrest)

theorem avg_pos (h : ∀ p ∈ l, 0 < p.1) (hvalues : ∀ p ∈ l, ∀ value ∈ p.2, 0 < value) : ∀ a ∈ (ofList l).avg, 0 < a := by
  intro a ha
  by_cases hpos : 0 < (ofList l).weight
  · rw [avg_of_pos hpos, Option.mem_some_iff] at ha
    rw [← ha]
    exact div_pos (total_pos h hvalues hpos) (cast_weight_pos hpos)
  · rw [avg, if_pos (not_lt.1 hpos)] at ha
    cases ha

/-- **Means of close values are close.** -/
theorem abs_avg_sub_le {m n : Mean K} {ε a b : K} (hweight : m.weight = n.weight)
    (h : |m.total - n.total| ≤ ε * m.weight) (ha : m.avg = some a) (hb : n.avg = some b) : |a - b| ≤ ε := by
  have hpos : 0 < m.weight := by
    by_contra hneg
    rw [avg, if_pos (not_lt.1 hneg)] at ha
    cases ha
  rw [avg_of_pos hpos, Option.some_inj] at ha
  rw [avg_of_pos (hweight ▸ hpos), Option.some_inj, ← hweight] at hb
  rw [← ha, ← hb, ← sub_div, abs_div, abs_of_pos (cast_weight_pos hpos), div_le_iff₀ (cast_weight_pos hpos)]
  exact h

/-- Errors add up. -/
theorem abs_sum_total_sub_le {ε : K} {ms ns : List (Mean K)}
    (h : List.Forall₂ (fun m n => m.weight = n.weight ∧ |m.total - n.total| ≤ ε * m.weight) ms ns) :
    ms.sum.weight = ns.sum.weight ∧ |ms.sum.total - ns.sum.total| ≤ ε * ms.sum.weight := by
  induction h with
  | nil => simp
  | cons hmn _ ih =>
    rename_i m n ms ns _
    refine ⟨congrArg₂ (· + ·) hmn.1 ih.1, ?_⟩
    simp only [List.sum_cons, add_total, add_weight, Int.cast_add]
    calc |m.total + ms.sum.total - (n.total + ns.sum.total)|
        = |(m.total - n.total) + (ms.sum.total - ns.sum.total)| := by ring_nf
      _ ≤ |m.total - n.total| + |ms.sum.total - ns.sum.total| := abs_add_le _ _
      _ ≤ ε * m.weight + ε * ms.sum.weight := add_le_add hmn.2 ih.2
      _ = ε * (m.weight + ms.sum.weight) := by ring

end

end Mean

end WeightedMean
