import Mathlib

/-!
# Comparators

A comparator returns a negative number, zero or a positive number, and is handed to a stable sort. It is ranked
over a set when it compares keys of a linear order there.

* `Ranked.antisymm`, `Ranked.trans` — a ranked comparator is consistent.
* `Ranked.pairwise_sort`, `Ranked.sort_perm` — sorting with it gives an ordered list, and up to ties the same one
  from any initial order.
-/

namespace Comparator

variable {A K L : Type}

section

variable [LinearOrder K] [LinearOrder L]

/-- `x > y` is 1, `x < y` is -1. -/
def sgn (x y : K) : Int := if y < x then 1 else if x < y then -1 else 0

theorem sgn_of_gt {x y : K} (h : y < x) : sgn x y = 1 := if_pos h

theorem sgn_of_lt {x y : K} (h : x < y) : sgn x y = -1 := by rw [sgn, if_neg h.not_gt, if_pos h]

@[simp] theorem sgn_self (x : K) : sgn x x = 0 := by rw [sgn, if_neg (lt_irrefl x), if_neg (lt_irrefl x)]

theorem sgn_swap (x y : K) : sgn x y = -sgn y x := by
  rcases lt_trichotomy x y with h | rfl | h
  · rw [sgn_of_lt h, sgn_of_gt h]
  · rw [sgn_self, neg_zero]
  · rw [sgn_of_gt h, sgn_of_lt h, neg_neg]

theorem sgn_eq_neg_one {x y : K} : sgn x y = -1 ↔ x < y := by
  rcases lt_trichotomy x y with h | rfl | h
  · simp only [sgn_of_lt h, h]
  · simp
  · simp [sgn_of_gt h, h.not_gt]

theorem sgn_eq_zero {x y : K} : sgn x y = 0 ↔ x = y := by
  rcases lt_trichotomy x y with h | rfl | h
  · simp [sgn_of_lt h, h.ne]
  · simp
  · simp [sgn_of_gt h, h.ne']

theorem sgn_nonpos {x y : K} : sgn x y ≤ 0 ↔ x ≤ y := by
  rcases lt_trichotomy x y with h | rfl | h
  · simp [sgn_of_lt h, h.le]
  · simp
  · simp [sgn_of_gt h, h.not_ge]

theorem sgn_dual (x y : K) : sgn (OrderDual.toDual x) (OrderDual.toDual y) = -sgn x y := by
  rw [sgn_swap x y, neg_neg]
  rfl

/-- The second components decide where the first ones are equal. -/
theorem sgn_lex (x x' : K) (y y' : L) :
    sgn (toLex (x, y)) (toLex (x', y')) = if sgn x x' ≠ 0 then sgn x x' else sgn y y' := by
  have hlt : ∀ {x x' : K} {y y' : L}, x < x' → toLex (x, y) < toLex (x', y') := fun h =>
    Prod.Lex.toLex_lt_toLex.2 (.inl h)
  rcases lt_trichotomy x x' with h | rfl | h
  · rw [sgn_of_lt (hlt h), sgn_of_lt h, if_pos (by decide)]
  · have hsame : ∀ y y' : L, toLex (x, y) < toLex (x, y') ↔ y < y' := fun y y' => by simp [Prod.Lex.toLex_lt_toLex]
    rw [sgn_self, if_neg (by decide), sgn, sgn]
    simp only [hsame]
  · rw [sgn_of_gt (hlt h), sgn_of_gt h, if_pos (by decide)]

end

/-- The comparator compares keys, over the set. -/
def Ranked (cmp : A → A → Int) (s : Set A) : Prop :=
  ∃ (K : Type) (_ : LinearOrder K) (rank : A → K), ∀ a ∈ s, ∀ b ∈ s, cmp a b = sgn (rank a) (rank b)

/-- The stable sort, by the comparator. -/
def sort (cmp : A → A → Int) (l : List A) : List A := l.mergeSort fun a b => decide (cmp a b ≤ 0)

namespace Ranked

variable {cmp : A → A → Int} {s : Set A}

theorem antisymm (h : Ranked cmp s) {a b : A} (ha : a ∈ s) (hb : b ∈ s) : cmp a b = -cmp b a := by
  obtain ⟨K, _, rank, hrank⟩ := h
  rw [hrank a ha b hb, hrank b hb a ha]
  exact sgn_swap _ _

theorem trans (h : Ranked cmp s) {a b c : A} (ha : a ∈ s) (hb : b ∈ s) (hc : c ∈ s) (hab : cmp a b ≤ 0)
    (hbc : cmp b c ≤ 0) : cmp a c ≤ 0 := by
  obtain ⟨K, _, rank, hrank⟩ := h
  rw [hrank a ha b hb, sgn_nonpos] at hab
  rw [hrank b hb c hc, sgn_nonpos] at hbc
  rw [hrank a ha c hc, sgn_nonpos]
  exact hab.trans hbc

/-- The keys of a sorted list are sorted. -/
theorem map_sort [LinearOrder K] {rank : A → K} (hrank : ∀ a ∈ s, ∀ b ∈ s, cmp a b = sgn (rank a) (rank b)) {l : List A}
    (hl : ∀ a ∈ l, a ∈ s) : (sort cmp l).map rank = (l.map rank).mergeSort fun x y => decide (x ≤ y) := by
  refine List.map_mergeSort fun a ha b hb => ?_
  rw [hrank a (hl a ha) b (hl b hb)]
  exact decide_eq_decide.2 sgn_nonpos

theorem pairwise_sort (h : Ranked cmp s) {l : List A} (hl : ∀ a ∈ l, a ∈ s) :
    (sort cmp l).Pairwise fun a b => cmp a b ≤ 0 := by
  obtain ⟨K, _, rank, hrank⟩ := h
  have hmem : ∀ a ∈ sort cmp l, a ∈ s := fun a ha => hl a (List.mem_mergeSort.1 ha)
  have hsorted : ((sort cmp l).map rank).Pairwise (· ≤ ·) := by
    rw [map_sort hrank hl]
    exact List.pairwise_mergeSort' _ _
  refine (List.pairwise_map.1 hsorted).imp_of_mem fun ha hb hle => ?_
  rw [hrank _ (hmem _ ha) _ (hmem _ hb)]
  exact sgn_nonpos.2 hle

/-- The result does not depend on the initial order, up to ties. -/
theorem sort_perm (h : Ranked cmp s) {l l' : List A} (hl : ∀ a ∈ l, a ∈ s) (hperm : l.Perm l') :
    List.Forall₂ (fun a b => cmp a b = 0) (sort cmp l) (sort cmp l') := by
  obtain ⟨K, _, rank, hrank⟩ := h
  have hl' : ∀ a ∈ l', a ∈ s := fun a ha => hl a (hperm.mem_iff.2 ha)
  have hkeys : (sort cmp l).map rank = (sort cmp l').map rank := by
    rw [map_sort hrank hl, map_sort hrank hl']
    refine List.Perm.eq_of_pairwise' (List.pairwise_mergeSort' (· ≤ ·) _) (List.pairwise_mergeSort' (· ≤ ·) _) ?_
    exact (List.mergeSort_perm _ _).trans ((hperm.map rank).trans (List.mergeSort_perm _ _).symm)
  rw [← List.forall₂_eq_eq_eq, List.forall₂_map_left_iff, List.forall₂_map_right_iff] at hkeys
  obtain ⟨hlength, hsame⟩ := List.forall₂_iff_zip.1 hkeys
  refine List.forall₂_iff_zip.2 ⟨hlength, fun {a b} hab => ?_⟩
  obtain ⟨ha, hb⟩ := List.of_mem_zip hab
  rw [hrank a (hl a (List.mem_mergeSort.1 ha)) b (hl' b (List.mem_mergeSort.1 hb))]
  exact sgn_eq_zero.2 (hsame hab)

end Ranked

end Comparator
