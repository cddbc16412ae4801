import Mathlib

/-!
# Insertion-ordered dictionaries

Python's `dict` (and a JavaScript `Map`): a key has one value, a new key goes to the end, an
assignment to an existing key keeps its place. That no key occurs twice is a field of the type,
so `items()` and `get` always agree (`mem_entries_iff`).
-/

structure Dict (K V : Type) where
  entries : List (K × V)
  nodup : (entries.map Prod.fst).Nodup

namespace Dict

variable {K V : Type}

instance [DecidableEq K] [DecidableEq V] : DecidableEq (Dict K V) := fun a b =>
  decidable_of_iff (a.entries = b.entries) ⟨fun h => by cases a; cases b; cases h; rfl, fun h => h ▸ rfl⟩

theorem ext {a b : Dict K V} (h : a.entries = b.entries) : a = b := by
  cases a; cases b; cases h; rfl

def empty : Dict K V := ⟨[], List.nodup_nil⟩

instance : EmptyCollection (Dict K V) := ⟨empty⟩
instance : Inhabited (Dict K V) := ⟨empty⟩

def keys (d : Dict K V) : List K := d.entries.map Prod.fst

def values (d : Dict K V) : List V := d.entries.map Prod.snd

@[simp] theorem keys_empty : (∅ : Dict K V).keys = [] := rfl

variable [DecidableEq K]

def lookup : List (K × V) → K → Option V
  | [], _ => none
  | (k, v) :: es, j => if k = j then some v else lookup es j

/-- `d.get(k)` -/
def get (d : Dict K V) (k : K) : Option V := lookup d.entries k

def put : List (K × V) → K → V → List (K × V)
  | [], k, v => [(k, v)]
  | (j, w) :: es, k, v => if j = k then (j, v) :: es else (j, w) :: put es k v

theorem keys_put : ∀ (es : List (K × V)) (k : K) (v : V),
    (put es k v).map Prod.fst = if k ∈ es.map Prod.fst then es.map Prod.fst else es.map Prod.fst ++ [k]
  | [], k, v => by simp [put]
  | (j, w) :: es, k, v => by
    by_cases h : j = k
    · simp [put, h]
    · simp only [put, h, if_false, List.map_cons, keys_put es k v, List.mem_cons, Ne.symm h, false_or]
      split <;> simp

/-- `d[k] = v` -/
def set (d : Dict K V) (k : K) (v : V) : Dict K V where
  entries := put d.entries k v
  nodup := by
    rw [keys_put]
    split
    · exact d.nodup
    · rename_i h
      exact List.nodup_append.2 ⟨d.nodup, by simp, fun a ha b hb e => h (by simp at hb; exact hb ▸ e ▸ ha)⟩

/-- `del d[k]`, without the `KeyError` of an absent key. -/
def erase (d : Dict K V) (k : K) : Dict K V where
  entries := d.entries.filter fun e => decide (e.1 ≠ k)
  nodup := (List.Sublist.map Prod.fst List.filter_sublist).nodup d.nodup

/-- What is left of the entries whose key passes the test. -/
def filterKeys (d : Dict K V) (p : K → Bool) : Dict K V where
  entries := d.entries.filter fun e => p e.1
  nodup := (List.Sublist.map Prod.fst List.filter_sublist).nodup d.nodup

/-- `d.update(l)`, the pairs of `l` from left to right. -/
def update (d : Dict K V) (l : List (K × V)) : Dict K V :=
  l.foldl (fun d e => d.set e.1 e.2) d

/-- `{k: v for k, v in l}` -/
def ofList (l : List (K × V)) : Dict K V := (∅ : Dict K V).update l

@[simp] theorem get_empty (k : K) : (∅ : Dict K V).get k = none := rfl

theorem lookup_put : ∀ (es : List (K × V)) (k j : K) (v : V),
    lookup (put es k v) j = if k = j then some v else lookup es j
  | [], k, j, v => rfl
  | (i, w) :: es, k, j, v => by
    by_cases h : i = k
    · subst h; simp only [put, if_true, lookup]; split <;> rfl
    · simp only [put, h, if_false, lookup, lookup_put es k j v]
      by_cases hij : i = j
      · subst hij; simp [Ne.symm h]
      · simp [hij]

@[simp] theorem get_set (d : Dict K V) (k j : K) (v : V) :
    (d.set k v).get j = if k = j then some v else d.get j := lookup_put _ _ _ _

theorem lookup_filter (p : K → Bool) (es : List (K × V)) (j : K) :
    lookup (es.filter fun e => p e.1) j = if p j then lookup es j else none := by
  induction es with
  | nil => simp [lookup]
  | cons e es ih =>
    obtain ⟨i, w⟩ := e
    by_cases hij : i = j
    · subst hij
      by_cases hp : p i = true <;> simp [lookup, ih, hp]
    · by_cases hp : p i = true <;> simp [lookup, ih, hp, hij]

@[simp] theorem get_filterKeys (d : Dict K V) (p : K → Bool) (j : K) :
    (d.filterKeys p).get j = if p j then d.get j else none := lookup_filter p d.entries j

@[simp] theorem get_erase (d : Dict K V) (k j : K) :
    (d.erase k).get j = if k = j then none else d.get j := by
  have h : (d.erase k).get j = if decide (j ≠ k) then d.get j else none :=
    lookup_filter (fun i => decide (i ≠ k)) d.entries j
  rw [h]
  by_cases hk : k = j <;> simp [hk, eq_comm (a := j)]

theorem lookup_eq_some_iff : ∀ {es : List (K × V)} {k : K} {v : V}, (es.map Prod.fst).Nodup →
    (lookup es k = some v ↔ (k, v) ∈ es)
  | [], _, _, _ => by simp [lookup]
  | (j, w) :: es, k, v, h => by
    rw [List.map_cons, List.nodup_cons] at h
    have ih := lookup_eq_some_iff (k := k) (v := v) h.2
    by_cases hjk : j = k
    · subst hjk
      have hj : (j, v) ∉ es := fun hm => h.1 (List.mem_map.2 ⟨_, hm, rfl⟩)
      simp [lookup, hj, eq_comm]
    · simp [lookup, hjk, ih, Ne.symm hjk]

/-- `items()` and `get` agree. -/
theorem mem_entries_iff {d : Dict K V} {k : K} {v : V} : (k, v) ∈ d.entries ↔ d.get k = some v :=
  (lookup_eq_some_iff d.nodup).symm

theorem mem_values_iff {d : Dict K V} {v : V} : v ∈ d.values ↔ ∃ k, d.get k = some v := by
  simp only [values, List.mem_map, Prod.exists, exists_eq_right, mem_entries_iff]

theorem mem_keys_iff {d : Dict K V} {k : K} : k ∈ d.keys ↔ ∃ v, d.get k = some v := by
  simp only [keys, List.mem_map, Prod.exists, exists_and_right, exists_eq_right, mem_entries_iff]

@[simp] theorem update_nil (d : Dict K V) : d.update [] = d := rfl

@[simp] theorem update_cons (d : Dict K V) (e : K × V) (l : List (K × V)) :
    d.update (e :: l) = (d.set e.1 e.2).update l := rfl

/-- The value after an update is that of the last pair with the key. -/
theorem get_update (l : List (K × V)) : ∀ (d : Dict K V) (k : K),
    (d.update l).get k = ((l.reverse.find? fun e => decide (e.1 = k)).map Prod.snd).or (d.get k) := by
  induction l with
  | nil => intro d k; simp
  | cons e l ih =>
    intro d k
    rw [update_cons, ih, get_set, List.reverse_cons, List.find?_append]
    cases l.reverse.find? fun e => decide (e.1 = k) with
    | some p => simp
    | none => by_cases h : e.1 = k <;> simp [h]

/-- `d.update(e)` of two dictionaries. -/
theorem get_update_entries (d e : Dict K V) (k : K) : (d.update e.entries).get k = (e.get k).or (d.get k) := by
  rw [get_update]
  congr 1
  cases hf : e.entries.reverse.find? fun e => decide (e.1 = k) with
  | none =>
    cases he : e.get k with
    | none => rfl
    | some v =>
      have hmem := List.mem_reverse.2 (mem_entries_iff.2 he)
      exact absurd (List.find?_eq_none.1 hf _ hmem) (by simp)
  | some p =>
    obtain ⟨j, v⟩ := p
    obtain rfl : j = k := by simpa using List.find?_some hf
    exact (mem_entries_iff.1 (List.mem_reverse.1 (List.mem_of_find?_eq_some hf))).symm

/-- An update with pairs of distinct keys. -/
theorem get_update_nodup {l : List (K × V)} (hl : (l.map Prod.fst).Nodup) (d : Dict K V) (k : K) :
    (d.update l).get k = (lookup l k).or (d.get k) := get_update_entries d ⟨l, hl⟩ k

/-- Tables with the same keys and related values answer alike. -/
theorem lookup_forall₂ {V' : Type} {R : V → V' → Prop} {es : List (K × V)} {es' : List (K × V')}
    (h : List.Forall₂ (fun e e' => e.1 = e'.1 ∧ R e.2 e'.2) es es') (k : K) :
    Option.Rel R (lookup es k) (lookup es' k) := by
  induction h with
  | nil => exact .none
  | @cons e e' es es' hee _ ih =>
    obtain ⟨i, w⟩ := e
    obtain ⟨i', w'⟩ := e'
    obtain ⟨rfl, hR⟩ := hee
    simp only [lookup]
    by_cases hk : i = k
    · rw [if_pos hk, if_pos hk]; exact .some hR
    · rw [if_neg hk, if_neg hk]; exact ih

/-- A value read after an update is one of its pairs, or was there before. -/
theorem get_update_mem {l : List (K × V)} {d : Dict K V} {k : K} {v : V} (h : (d.update l).get k = some v) :
    (k, v) ∈ l ∨ d.get k = some v := by
  rw [get_update] at h
  cases hf : l.reverse.find? fun e => decide (e.1 = k) with
  | none => rw [hf] at h; exact .inr h
  | some e =>
    rw [hf] at h
    obtain ⟨rfl, rfl⟩ : e.1 = k ∧ e.2 = v := ⟨by simpa using List.find?_some hf, by simpa using h⟩
    exact .inl (List.mem_reverse.1 (List.mem_of_find?_eq_some hf))

/-- `{k: f(v) for k, v in d.items()}` -/
def mapValues {W : Type} (d : Dict K V) (f : V → W) : Dict K W where
  entries := d.entries.map fun e => (e.1, f e.2)
  nodup := by simpa [Function.comp_def] using d.nodup

theorem lookup_map_values {W : Type} (f : V → W) (es : List (K × V)) (k : K) :
    lookup (es.map fun e => (e.1, f e.2)) k = (lookup es k).map f := by
  induction es with
  | nil => rfl
  | cons e es ih =>
    obtain ⟨j, v⟩ := e
    by_cases h : j = k <;> simp [lookup, h, ih]

@[simp] theorem get_mapValues {W : Type} (d : Dict K V) (f : V → W) (k : K) :
    (d.mapValues f).get k = (d.get k).map f := lookup_map_values f d.entries k

end Dict
