import Mathlib

/-!
# Series of dated values, added up

Several series are added up by position, or by the time their points bear. Values are of any type with a sum; no
law of it is used.

* `prefix_of_noMix` — where points of one position are of one time, a series is the start of every longer one.
* `aligned_iff` — when the sums by position are those by time, and no two times are mixed.
-/

namespace SlurmWeb.Series

variable {T M : Type}

abbrev Points (T M : Type) := List (T × M)

def times (s : Points T M) : List T := s.map Prod.fst

def maxLength (l : List (Points T M)) : Nat := (l.map List.length).foldr max 0

/-- No points of two times in one position. -/
def NoMix (l : List (Points T M)) : Prop :=
  ∀ (i : Nat), ∀ a ∈ l, ∀ b ∈ l, ∀ (p q : T × M), a[i]? = some p → b[i]? = some q → p.1 = q.1

/-! ## Positions -/

@[simp] theorem length_times (s : Points T M) : (times s).length = s.length := List.length_map _

theorem times_getElem? (s : Points T M) (i : Nat) : (times s)[i]? = s[i]?.map Prod.fst := List.getElem?_map ..

theorem le_maxLength {l : List (Points T M)} {s : Points T M} (h : s ∈ l) : s.length ≤ maxLength l := by
  induction l with
  | nil => cases h
  | cons a l ih =>
    rcases List.mem_cons.1 h with rfl | h
    · exact le_max_left _ _
    · exact (ih h).trans (le_max_right _ _)

/-- The greatest length is that of a series. -/
theorem exists_longest {l : List (Points T M)} (h : l ≠ []) : ∃ s ∈ l, s.length = maxLength l := by
  induction l with
  | nil => exact absurd rfl h
  | cons a l ih =>
    rcases eq_or_ne l [] with rfl | hl
    · exact ⟨a, List.mem_cons_self, (max_eq_left (Nat.zero_le _)).symm⟩
    · obtain ⟨s, hs, hlen⟩ := ih hl
      rcases le_total (maxLength l) a.length with hle | hle
      · exact ⟨a, List.mem_cons_self, (max_eq_left hle).symm⟩
      · exact ⟨s, List.mem_cons_of_mem _ hs, hlen.trans (max_eq_right hle).symm⟩

theorem prefix_of_noMix {l : List (Points T M)} (h : NoMix l) {a b : Points T M} (ha : a ∈ l) (hb : b ∈ l)
    (hle : a.length ≤ b.length) : times a <+: times b := by
  rw [List.prefix_iff_eq_take, length_times]
  refine List.ext_getElem? fun i => ?_
  rw [List.getElem?_take]
  split
  next hlt =>
    have hai := List.getElem?_eq_getElem hlt
    have hbi := List.getElem?_eq_getElem (hlt.trans_le hle)
    rw [times_getElem?, times_getElem?, hai, hbi]
    exact congrArg some (h i a ha b hb _ _ hai hbi)
  next hge => rw [List.getElem?_eq_none (by rw [length_times]; omega)]

/-- Points of one position are of one time where the series start alike. -/
theorem time_of_initial {a b : Points T M} (h : times a <+: times b) {i : Nat} {p q : T × M} (hp : a[i]? = some p)
    (hq : b[i]? = some q) : p.1 = q.1 := by
  obtain ⟨rest, hrest⟩ := h
  have hlt : i < (times a).length := by
    rw [length_times]
    exact (List.getElem?_eq_some_iff.1 hp).1
  have htime : (times b)[i]? = (times a)[i]? := by rw [← hrest, List.getElem?_append_left hlt]
  rw [times_getElem?, times_getElem?, hp, hq] at htime
  exact (Option.some.inj htime).symm

theorem noMix_of_initial {l : List (Points T M)}
    (h : ∀ a ∈ l, ∀ b ∈ l, times a <+: times b ∨ times b <+: times a) : NoMix l := by
  intro i a ha b hb p q hp hq
  rcases h a ha b hb with hab | hba
  · exact time_of_initial hab hp hq
  · exact (time_of_initial hba hq hp).symm

/-! ## Times -/

section
variable [LinearOrder T]

/-- The times of all series, in order. -/
def allTimes (l : List (Points T M)) : List T := (l.flatMap times).toFinset.sort

/-- Of two series one starts as the other, and none has a time twice. -/
structure Nested (l : List (Points T M)) : Prop where
  start : ∀ a ∈ l, ∀ b ∈ l, times a <+: times b ∨ times b <+: times a
  once : ∀ a ∈ l, (times a).Pairwise (· < ·)

/-- The times of a longest series that the others start are all times. -/
theorem allTimes_toFinset {l : List (Points T M)} {m : Points T M} (hm : m ∈ l) (h : ∀ a ∈ l, times a <+: times m) :
    (l.flatMap times).toFinset = (times m).toFinset := by
  ext t
  simp only [List.mem_toFinset, List.mem_flatMap]
  constructor
  · rintro ⟨a, ha, ht⟩
    exact (h a ha).subset ht
  · exact fun ht => ⟨m, hm, ht⟩

theorem allTimes_eq {l : List (Points T M)} {m : Points T M} (hm : m ∈ l) (h : ∀ a ∈ l, times a <+: times m)
    (honce : (times m).Pairwise (· < ·)) : allTimes l = times m := by
  refine (Finset.sortedLT_sort _).pairwise.eq_of_mem_iff honce fun t => ?_
  rw [Finset.mem_sort, allTimes_toFinset hm h, List.mem_toFinset]

end

/-! ## Sums -/

section
variable [Zero M] [Add M]

/-- The value at a position, nothing past the end. -/
def valueOn (s : Points T M) (i : Nat) : M := (s[i]?.map Prod.snd).getD 0

/-- `total + f s` over the series -/
def total (f : Points T M → M) (l : List (Points T M)) : M := l.foldl (fun sum s => sum + f s) 0

/-- The series added up by position. -/
def positional (l : List (Points T M)) : List M := (List.range (maxLength l)).map fun i => total (valueOn · i) l

theorem total_congr {f g : Points T M → M} {l : List (Points T M)} (h : ∀ s ∈ l, f s = g s) : total f l = total g l :=
  List.foldl_ext _ _ 0 fun sum s hs => by rw [h s hs]

variable [LinearOrder T]

/-- The sum of the values at a time, nothing if there are none. -/
def valueAt (s : Points T M) (t : T) : M :=
  match (s.filter fun p => p.1 = t).map Prod.snd with
  | [] => 0
  | v :: vs => vs.foldl (· + ·) v

/-- The series added up by time. -/
def aligned (l : List (Points T M)) : List M := (allTimes l).map fun t => total (valueAt · t) l

theorem valueAt_absent {s : Points T M} {t : T} (h : t ∉ times s) : valueAt s t = 0 := by
  have hnone : (s.filter fun p => p.1 = t) = [] := List.filter_eq_nil_iff.2 fun p hp heq =>
    h (of_decide_eq_true heq ▸ List.mem_map_of_mem hp)
  rw [valueAt, hnone]
  rfl

theorem valueAt_mem {s : Points T M} (h : (times s).Pairwise (· < ·)) {p : T × M} (hp : p ∈ s) :
    valueAt s p.1 = p.2 := by
  have hone : (s.filter fun q => q.1 = p.1) = [p] := by
    obtain ⟨before, after, rfl⟩ := List.append_of_mem hp
    rw [times, List.map_append, List.map_cons, List.pairwise_append, List.pairwise_cons] at h
    obtain ⟨-, ⟨hafter, -⟩, hbefore⟩ := h
    have hleft : (before.filter fun q => q.1 = p.1) = [] := List.filter_eq_nil_iff.2 fun q hq heq =>
      (hbefore _ (List.mem_map_of_mem hq) _ List.mem_cons_self).ne (of_decide_eq_true heq)
    have hright : (after.filter fun q => q.1 = p.1) = [] := List.filter_eq_nil_iff.2 fun q hq heq =>
      (hafter _ (List.mem_map_of_mem hq)).ne' (of_decide_eq_true heq)
    rw [List.filter_append, List.filter_cons_of_pos (by simp), hleft, hright]
    rfl
  rw [valueAt, hone]
  rfl

/-- The value at a position is that at the time the position has in a longer series. -/
theorem valueOn_eq {s m : Points T M} (h : times s <+: times m) (honce : (times m).Pairwise (· < ·)) {i : Nat} {t : T}
    (ht : (times m)[i]? = some t) : valueOn s i = valueAt s t := by
  obtain ⟨rest, hrest⟩ := h
  rw [← hrest, List.pairwise_append] at honce
  obtain ⟨hs, -, hafter⟩ := honce
  rcases lt_or_ge i s.length with hlt | hge
  · have hp := List.getElem?_eq_getElem hlt
    have htime : (times s)[i]? = some t := by
      rw [← ht, ← hrest, List.getElem?_append_left (by rwa [length_times])]
    rw [times_getElem?, hp] at htime
    rw [valueOn, hp, ← Option.some.inj htime, valueAt_mem hs (List.getElem_mem hlt)]
    rfl
  · have hmem : t ∈ rest := by
      rw [← hrest, List.getElem?_append_right (by rwa [length_times])] at ht
      exact List.mem_of_getElem? ht
    rw [valueOn, List.getElem?_eq_none hge, valueAt_absent fun hs => lt_irrefl t (hafter t hs t hmem)]
    rfl

theorem positional_of_nested {l : List (Points T M)} (h : Nested l) : positional l = aligned l := by
  rcases eq_or_ne l [] with rfl | hne
  · simp [positional, aligned, maxLength, allTimes]
  obtain ⟨m, hm, hlen⟩ := exists_longest hne
  have hinitial : ∀ a ∈ l, times a <+: times m := fun a ha =>
    prefix_of_noMix (noMix_of_initial h.start) ha hm (hlen ▸ le_maxLength ha)
  rw [positional, aligned, allTimes_eq hm hinitial (h.once m hm), ← hlen]
  refine List.ext_getElem? fun i => ?_
  rw [List.getElem?_map, List.getElem?_map]
  rcases lt_or_ge i m.length with hlt | hge
  · have ht := List.getElem?_eq_getElem (by rwa [length_times] : i < (times m).length)
    rw [List.getElem?_range hlt, ht, Option.map_some, Option.map_some]
    exact congrArg some (total_congr fun s hs => valueOn_eq (hinitial s hs) (h.once m hm) ht)
  · rw [List.getElem?_eq_none (by simpa using hge), List.getElem?_eq_none (by simpa using hge)]
    rfl

theorem aligned_iff {l : List (Points T M)} (hsorted : ∀ s ∈ l, (times s).Pairwise (· ≤ ·)) :
    (positional l = aligned l ∧ NoMix l) ↔ Nested l := by
  constructor
  · rintro ⟨hsum, hmix⟩
    have hstart : ∀ a ∈ l, ∀ b ∈ l, times a <+: times b ∨ times b <+: times a := fun a ha b hb =>
      (le_total a.length b.length).imp (prefix_of_noMix hmix ha hb) (prefix_of_noMix hmix hb ha)
    refine ⟨hstart, fun a ha => ?_⟩
    obtain ⟨m, hm, hlen⟩ := exists_longest (List.ne_nil_of_mem ha)
    have hinitial : ∀ a ∈ l, times a <+: times m := fun a ha => prefix_of_noMix hmix ha hm (hlen ▸ le_maxLength ha)
    -- as many sums as times: the longest series has none twice
    have hcount : (times m).toFinset.card = (times m).length := by
      have hlength := congrArg List.length hsum
      rw [positional, aligned, List.length_map, List.length_map, List.length_range, allTimes, Finset.length_sort,
        allTimes_toFinset hm hinitial, ← hlen] at hlength
      rw [length_times, hlength]
    have hnodup : (times m).Nodup := Multiset.coe_nodup.1 (Multiset.toFinset_card_eq_card_iff_nodup.1 hcount)
    have hstrict : (times m).Pairwise (· < ·) := (hsorted m hm).sortedLE.sortedLT_of_nodup hnodup |>.pairwise
    exact hstrict.sublist (hinitial a ha).sublist
  · exact fun h => ⟨positional_of_nested h, noMix_of_initial h.start⟩

end

end SlurmWeb.Series
