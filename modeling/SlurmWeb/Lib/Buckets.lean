import Mathlib

/-!
# Buckets of a line

The numbers are cut into buckets of one width that are counted from an origin. A walk over the buckets of a
range meets each of them once.

* `floorTo_mono`, `floorTo_add_mul` — the start of the bucket of a number.
* `floorTo_mem_ticks` — a walk from the bucket of `start` meets those of all numbers up to `stop`.
* `sum_countP` — counting by buckets counts everything once.
-/

namespace Buckets

/-- The start of the bucket of a number. -/
def floorTo (origin width t : Int) : Int := t - (t - origin) % width

/-- The starts of `n` buckets in a row. -/
def ticks (width start : Int) (n : Nat) : List Int := (List.range n).map fun i : Nat => start + (i : Int) * width

/-- The buckets from `start` that do not begin after `stop`. -/
def tickCount (width start stop : Int) : Nat := ((stop - start) / width + 1).toNat

section
variable {origin width s t : Int}

theorem floorTo_le (h : 0 < width) : floorTo origin width t ≤ t := by
  have hnonneg := Int.emod_nonneg (t - origin) h.ne'
  rw [floorTo]
  omega

/-- The start of a bucket is some widths from the origin. -/
theorem floorTo_eq (origin width t : Int) : floorTo origin width t = origin + (t - origin) / width * width := by
  have hdiv := Int.mul_ediv_add_emod (t - origin) width
  rw [floorTo, mul_comm]
  omega

theorem floorTo_mono (h : 0 < width) (hst : s ≤ t) : floorTo origin width s ≤ floorTo origin width t := by
  rw [floorTo_eq, floorTo_eq]
  have hdiv : (s - origin) / width ≤ (t - origin) / width := Int.ediv_le_ediv h (by omega)
  have hmul := mul_le_mul_of_nonneg_right hdiv h.le
  omega

/-- Later buckets are some widths later. -/
theorem floorTo_add_mul (h : 0 < width) (hst : s ≤ t) : ∃ i :
    Nat, floorTo origin width t = floorTo origin width s + i * width := by
  have hdiv : (s - origin) / width ≤ (t - origin) / width := Int.ediv_le_ediv h (by omega)
  refine ⟨((t - origin) / width - (s - origin) / width).toNat, ?_⟩
  rw [floorTo_eq, floorTo_eq, Int.toNat_of_nonneg (by omega)]
  ring

end

theorem ticks_zero (width start : Int) : ticks width start 0 = [] := rfl

theorem ticks_succ (width start : Int) (n : Nat) :
    ticks width start (n + 1) = start :: ticks width (start + width) n := by
  rw [ticks, List.range_succ_eq_map, List.map_cons, List.map_map, ticks]
  refine congrArg₂ (· :: ·) (by simp) (List.map_congr_left fun i _ => ?_)
  rw [Function.comp_apply]
  push_cast
  ring

theorem nodup_ticks {width : Int} (h : 0 < width) (start : Int) (n : Nat) : (ticks width start n).Nodup := by
  refine List.nodup_range.map fun i j hij => ?_
  have hmul : (i : Int) * width = j * width := by
    have hij : start + i * width = start + j * width := hij
    omega
  exact Int.natCast_inj.1 (mul_right_cancel₀ h.ne' hmul)

/-- Whether there is another bucket. -/
theorem tickCount_of_le {width start stop : Int} (h : 0 < width) (hle : start ≤ stop) :
    tickCount width start stop = tickCount width (start + width) stop + 1 := by
  have hnonneg : 0 ≤ (stop - start) / width := Int.ediv_nonneg (by omega) h.le
  have hnext : (stop - (start + width)) / width = (stop - start) / width - 1 := by
    have hsub : stop - (start + width) = stop - start + -1 * width := by ring
    rw [hsub, Int.add_mul_ediv_right _ _ h.ne']
    rfl
  rw [tickCount, tickCount, hnext]
  omega

theorem tickCount_of_lt {width start stop : Int} (h : 0 < width) (hlt : stop < start) :
    tickCount width start stop = 0 := by
  have hneg : (stop - start) / width < 0 := Int.ediv_neg_of_neg_of_pos (by omega) h
  rw [tickCount]
  omega

section
variable {origin width start stop : Int}

/-- **A walk meets the bucket of every number.** -/
theorem floorTo_mem_ticks (h : 0 < width) {t : Int} (hstart : start ≤ t) (hstop : t ≤ stop) :
    floorTo origin width t ∈ ticks width (floorTo origin width start)
      (tickCount width (floorTo origin width start) stop) := by
  obtain ⟨i, hi⟩ := @floorTo_add_mul origin _ _ _ h hstart
  refine List.mem_map.2 ⟨i, List.mem_range.2 ?_, hi.symm⟩
  have hle : (i : Int) * width ≤ stop - floorTo origin width start := by
    have hfloor := @floorTo_le origin _ t h
    omega
  have hdiv : (i : Int) ≤ (stop - floorTo origin width start) / width := (Int.le_ediv_iff_mul_le h).2 hle
  rw [tickCount]
  omega

/-- The bucket after the last one. -/
theorem add_tickCount (h : 0 < width) (hle : floorTo origin width start ≤ stop) :
    floorTo origin width start + tickCount width (floorTo origin width start) stop * width =
      floorTo origin width stop + width := by
  have hnonneg : 0 ≤ (stop - floorTo origin width start) / width := Int.ediv_nonneg (by omega) h.le
  have hshift : stop - floorTo origin width start = stop - origin + -((start - origin) / width) * width := by
    rw [floorTo_eq]
    ring
  have hdiv : (stop - floorTo origin width start) / width = (stop - origin) / width - (start - origin) / width := by
    rw [hshift, Int.add_mul_ediv_right _ _ h.ne']
    rfl
  rw [tickCount, Int.toNat_of_nonneg (by omega), hdiv, floorTo_eq, floorTo_eq]
  ring

end

/-- **Counting by buckets counts everything once.** -/
theorem sum_countP {α β : Type} [DecidableEq β] (f : α → β) {keys : List β} (hkeys : keys.Nodup) {l : List α}
    (h : ∀ a ∈ l, f a ∈ keys) : (keys.map fun k => l.countP fun a => decide (f a = k)).sum = l.length := by
  induction l with
  | nil => simp
  | cons a l ih =>
    have hrest := ih fun b hb => h b (List.mem_cons_of_mem _ hb)
    have hcount : ∀ keys : List β, (keys.map fun k => if f a = k then 1 else 0).sum = keys.count (f a) := by
      intro keys
      induction keys with
      | nil => rfl
      | cons k keys ih =>
        rw [List.map_cons, List.sum_cons, ih, List.count_cons]
        by_cases hk : f a = k
        · simp [hk, add_comm]
        · simp [hk, Ne.symm hk]
    have hone := hcount keys
    rw [List.count_eq_one_of_mem hkeys (h a List.mem_cons_self)] at hone
    simp only [List.countP_cons, decide_eq_true_eq, List.sum_map_add, hrest, hone, List.length_cons]

end Buckets
