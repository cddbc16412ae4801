import Mathlib

/-!
# Slices of a list in strictly ascending order

The elements of a list are compared by a key. A slice from one element up to another, cut by position, is
the elements whose keys lie between.

* `slice_eq_between` — positions and keys cut the same slice.
* `between_append` — two slices one after the other.
* `filterMap_lookup` — a table in ascending order, looked up along the list.
-/

namespace SlurmWeb.Slices

variable {α β γ : Type} [LinearOrder β] (key : α → β)

def Ascending (l : List α) : Prop := l.Pairwise fun x y => key x < key y

/-- The elements from the key `a` up to, not including, the key `b`. -/
def between (a b : β) (l : List α) : List α := l.filter fun x => a ≤ key x && key x < b

variable {key}

theorem mem_between {a b : β} {l : List α} {x : α} : x ∈ between key a b l ↔ x ∈ l ∧ a ≤ key x ∧ key x < b := by
  simp [between]

theorem Ascending.between {l : List α} (h : Ascending key l) (a b : β) : Ascending key (between key a b l) :=
  h.sublist List.filter_sublist

theorem between_eq_nil {a b : β} {l : List α} (h : b ≤ a) : between key a b l = [] := by
  simp only [between, List.filter_eq_nil_iff, Bool.and_eq_true, decide_eq_true_eq, not_and, not_lt]
  exact fun x _ hx => h.trans hx

theorem between_append {a b c : β} {l : List α} (h : Ascending key l) (hab : a ≤ b) (hbc : b ≤ c) :
    between key a c l = between key a b l ++ between key b c l := by
  induction l with
  | nil => rfl
  | cons x l ih =>
    obtain ⟨hx, hl⟩ := List.pairwise_cons.1 h
    rcases lt_or_ge (key x) b with hxb | hbx
    · have hc : key x < c := hxb.trans_le hbc
      have hb : ¬ b ≤ key x := not_le.2 hxb
      by_cases ha : a ≤ key x <;> simpa [between, ha, hb, hc, hxb] using ih hl
    · -- from here on nothing lies below `b`
      have hempty : between key a b (x :: l) = [] := by
        simp only [between, List.filter_eq_nil_iff, Bool.and_eq_true, decide_eq_true_eq, not_and, not_lt]
        rintro y (_ | ⟨_, hy⟩) -
        · exact hbx
        · exact hbx.trans (hx y hy).le
      rw [hempty, List.nil_append]
      refine List.filter_congr fun y hy => ?_
      have hby : b ≤ key y := by
        rcases List.mem_cons.1 hy with rfl | hy
        · exact hbx
        · exact hbx.trans (hx y hy).le
      simp [hby, hab.trans hby]

/-! ## Cuts by position -/

section
variable [BEq α] [LawfulBEq α]

theorem idxOf?_eq_some_idxOf {l : List α} {a : α} (h : a ∈ l) : l.idxOf? a = some (l.idxOf a) := by
  induction l with
  | nil => cases h
  | cons x l ih =>
    by_cases hx : x = a
    · simp [List.idxOf?_cons, hx]
    · have ha : a ∈ l := (List.mem_cons.1 h).resolve_left fun h => hx h.symm
      simp [List.idxOf?_cons, List.idxOf_cons_ne _ hx, hx, ih ha]

theorem take_idxOf {l : List α} (h : Ascending key l) {b : α} (hb : b ∈ l) :
    l.take (l.idxOf b) = l.filter fun x => key x < key b := by
  induction l with
  | nil => cases hb
  | cons x l ih =>
    obtain ⟨hx, hl⟩ := List.pairwise_cons.1 h
    rcases List.mem_cons.1 hb with rfl | hb
    · have htail : ∀ y ∈ l, ¬ key y < key b := fun y hy => not_lt.2 (hx y hy).le
      simpa [List.idxOf_cons_self] using htail
    · have hne : x ≠ b := by
        rintro rfl
        exact lt_irrefl _ (hx x hb)
      simp [List.idxOf_cons_ne _ hne, hx b hb, ih hl hb]

theorem drop_idxOf {l : List α} (h : Ascending key l) {a : α} (ha : a ∈ l) :
    l.drop (l.idxOf a) = l.filter fun x => key a ≤ key x := by
  induction l with
  | nil => cases ha
  | cons x l ih =>
    obtain ⟨hx, hl⟩ := List.pairwise_cons.1 h
    rcases List.mem_cons.1 ha with rfl | ha
    · have hself : l.filter (fun y => key a ≤ key y) = l :=
        List.filter_eq_self.2 fun y hy => decide_eq_true (hx y hy).le
      simp [List.idxOf_cons_self, hself]
    · have hne : x ≠ a := by
        rintro rfl
        exact lt_irrefl _ (hx x ha)
      simp [List.idxOf_cons_ne _ hne, hx a ha, ih hl ha]

theorem slice_eq_between {l : List α} (h : Ascending key l) {a b : α} (ha : a ∈ l) (hb : b ∈ l) :
    (l.drop (l.idxOf a)).take (l.idxOf b - l.idxOf a) = between key (key a) (key b) l := by
  rcases lt_or_ge (key a) (key b) with hab | hba
  · have htake : Ascending key (l.take (l.idxOf b)) := h.sublist (List.take_sublist ..)
    have hmem : a ∈ l.take (l.idxOf b) := by
      rw [take_idxOf h hb]
      exact List.mem_filter.2 ⟨ha, by simpa using hab⟩
    -- `a` stands where it stood before `b` was cut off
    have hsame : (l.take (l.idxOf b)).idxOf a = l.idxOf a := by
      conv_rhs => rw [← List.take_append_drop (l.idxOf b) l]
      rw [List.idxOf_append_of_mem hmem]
    rw [← List.drop_take, ← hsame, drop_idxOf htake hmem, take_idxOf h hb, List.filter_filter]
    rfl
  · have hle : l.idxOf b ≤ l.idxOf a := by
      by_contra hlt
      have hmem : a ∈ l.take (l.idxOf b) := (List.mem_take_iff_idxOf_lt ha).2 (by omega)
      rw [take_idxOf h hb, List.mem_filter] at hmem
      exact absurd (by simpa using hmem.2) (not_lt.2 hba)
    rw [Nat.sub_eq_zero_of_le hle, List.take_zero, between_eq_nil hba]

end

theorem filterMap_range' {l : List α} (f : α → Option γ) : ∀ (n i : Nat), i + n ≤ l.length →
    (List.range' i n).filterMap (fun k => l[k]?.bind f) = ((l.drop i).take n).filterMap f
  | 0, _, _ => by simp
  | n + 1, i, h => by
    rw [List.range'_succ, List.drop_eq_getElem_cons (by omega : i < l.length), List.take_succ_cons,
      List.filterMap_cons, List.filterMap_cons, filterMap_range' f n (i + 1) (by omega),
      List.getElem?_eq_getElem (by omega)]
    rfl

/-! ## A table in ascending order -/

variable [BEq α] [LawfulBEq α]

theorem lookup_eq_some_iff {table : List (α × γ)} (h : Ascending (fun e : α × γ => key e.1) table) {x : α} {c : γ} :
    table.lookup x = some c ↔ (x, c) ∈ table := by
  induction table with
  | nil => simp
  | cons d table ih =>
    obtain ⟨hd, htail⟩ := List.pairwise_cons.1 h
    by_cases hkey : x = d.1
    · subst hkey
      have hnot : (d.1, c) ∉ table := fun hmem => lt_irrefl (key d.1) (by simpa using hd (d.1, c) hmem)
      rw [List.lookup_cons, beq_self_eq_true]
      simp [hnot, Prod.ext_iff, eq_comm]
    · have hbeq : (x == d.1) = false := by simpa using hkey
      rw [List.lookup_cons, hbeq]
      simpa [Prod.ext_iff, hkey] using ih htail

/-- The entries of an ascending table met along an ascending list are the table's entries in the list. -/
theorem filterMap_lookup {table : List (α × γ)} {l : List α} (htable : Ascending (fun e : α × γ => key e.1) table)
    (h : Ascending key l) :
    (l.filterMap fun x => (table.lookup x).map (x, ·)) = table.filter fun e => e.1 ∈ l := by
  have : Std.Irrefl fun e d : α × γ => key e.1 < key d.1 := ⟨fun e => lt_irrefl _⟩
  have : Std.Antisymm fun e d : α × γ => key e.1 < key d.1 := ⟨fun e d hed hde => absurd hed hde.not_gt⟩
  refine List.Pairwise.eq_of_mem_iff ?_ (htable.sublist List.filter_sublist) fun e => ?_
  · refine h.filterMap _ fun x y hxy d hd e he => ?_
    obtain ⟨_, _, rfl⟩ := Option.map_eq_some_iff.1 hd
    obtain ⟨_, _, rfl⟩ := Option.map_eq_some_iff.1 he
    exact hxy
  · simp only [List.mem_filterMap, Option.map_eq_some_iff, List.mem_filter, decide_eq_true_eq]
    constructor
    · rintro ⟨x, hx, c, hc, rfl⟩
      exact ⟨(lookup_eq_some_iff htable).1 hc, hx⟩
    · rintro ⟨he, hx⟩
      exact ⟨e.1, hx, e.2, (lookup_eq_some_iff htable).2 he, rfl⟩

end SlurmWeb.Slices
