import SlurmWeb.Lib.Dict

/-!
# Groups

`buckets[key(x)].add(x)` over a list, with a `defaultdict` of buckets: every element with a key is added to
the bucket of its key, in order.

* `get_gather` — a bucket is made of the elements with its key, and of no other.
* `gather_append` — elements with other keys than those before make buckets after theirs.
* `flatMap_ofKey_perm` — the elements with a key, bucket by bucket.
* `sum_gather` — a figure that adds up inside a bucket adds up over all of them.
-/

namespace Gather

variable {α K B M : Type} [DecidableEq K]

section
variable (key : α → Option K) (empty : B) (add : B → α → B)

def step (d : Dict K B) (a : α) : Dict K B :=
  match key a with
  | none => d
  | some k => d.set k (add ((d.get k).getD empty) a)

def gather (d : Dict K B) (l : List α) : Dict K B := l.foldl (step key empty add) d

/-- The elements of a bucket. -/
def ofKey (k : K) (l : List α) : List α := l.filter fun a => key a = some k

end

variable {key : α → Option K} {empty : B} {add : B → α → B}

theorem gather_cons (d : Dict K B) (a : α) (l : List α) :
    gather key empty add d (a :: l) = gather key empty add (step key empty add d a) l := rfl

theorem step_get (d : Dict K B) (a : α) (k : K) : (step key empty add d a).get k =
    if key a = some k then some (add ((d.get k).getD empty) a) else d.get k := by
  rw [step]
  cases ha : key a with
  | none => simp
  | some j =>
    dsimp only
    rw [Dict.get_set]
    by_cases hj : j = k
    · subst hj
      simp
    · rw [if_neg hj, if_neg fun h => hj (Option.some.inj h)]

theorem ofKey_cons (k : K) (a : α) (l : List α) :
    ofKey key k (a :: l) = if key a = some k then a :: ofKey key k l else ofKey key k l := by
  rw [ofKey, List.filter_cons]
  by_cases h : key a = some k <;> simp [h, ofKey]

/-- **A bucket is made of the elements with its key.** -/
theorem get_gather (d : Dict K B) (l : List α) (k : K) : (gather key empty add d l).get k =
    if ofKey key k l = [] then d.get k else some ((ofKey key k l).foldl add ((d.get k).getD empty)) := by
  induction l generalizing d with
  | nil => simp [gather, ofKey]
  | cons a l ih =>
    rw [gather_cons, ih, step_get, ofKey_cons]
    by_cases h : key a = some k
    · simp only [h, if_true, Option.getD_some, List.foldl_cons, reduceCtorEq, if_false]
      by_cases hnil : ofKey key k l = []
      · simp [hnil]
      · simp [hnil]
    · simp only [h, if_false]

theorem get_gather_empty (l : List α) (k : K) : (gather key empty add ∅ l).get k =
    if ofKey key k l = [] then none else some ((ofKey key k l).foldl add empty) := by
  rw [get_gather]
  simp

theorem ofKey_ne_nil {l : List α} {k : K} : ofKey key k l ≠ [] ↔ ∃ a ∈ l, key a = some k := by
  rw [ofKey, Ne, List.filter_eq_nil_iff]
  simp

theorem mem_gather {l : List α} {k : K} {b : B} : (k, b) ∈ (gather key empty add ∅ l).entries ↔
    ofKey key k l ≠ [] ∧ b = (ofKey key k l).foldl add empty := by
  rw [Dict.mem_entries_iff, get_gather_empty]
  by_cases h : ofKey key k l = []
  · simp [h]
  · simp [h, eq_comm]

theorem ofKey_perm {l l' : List α} (h : l.Perm l') (k : K) : (ofKey key k l).Perm (ofKey key k l') := h.filter _

/-! ## Other keys -/

theorem lookup_append_of_not_mem {es es' : List (K × B)} {k : K} (h : k ∉ es.map Prod.fst) :
    Dict.lookup (es ++ es') k = Dict.lookup es' k := by
  induction es with
  | nil => rfl
  | cons e es ih =>
    rw [List.map_cons, List.mem_cons, not_or] at h
    rw [List.cons_append, Dict.lookup, if_neg (Ne.symm h.1), ih h.2]

theorem put_append_of_not_mem {es es' : List (K × B)} {k : K} (h : k ∉ es.map Prod.fst) (b : B) :
    Dict.put (es ++ es') k b = es ++ Dict.put es' k b := by
  induction es with
  | nil => rfl
  | cons e es ih =>
    rw [List.map_cons, List.mem_cons, not_or] at h
    rw [List.cons_append, Dict.put, if_neg (Ne.symm h.1), ih h.2, List.cons_append]

/-- Elements with other keys leave the first buckets alone. -/
theorem gather_append {es : List (K × B)} : ∀ {l : List α} {d d' : Dict K B}, d.entries = es ++ d'.entries →
    (∀ a ∈ l, ∀ k, key a = some k → k ∉ es.map Prod.fst) →
    (gather key empty add d l).entries = es ++ (gather key empty add d' l).entries
  | [], _, _, h, _ => h
  | a :: l, d, d', h, hother => by
    rw [gather_cons, gather_cons]
    refine gather_append ?_ fun b hb => hother b (List.mem_cons_of_mem _ hb)
    rw [step, step]
    cases ha : key a with
    | none => exact h
    | some k =>
      have hk := hother a List.mem_cons_self k ha
      simp only [Dict.set, Dict.get]
      rw [h, lookup_append_of_not_mem hk, put_append_of_not_mem hk]

theorem mem_keys_gather {l : List α} {k : K} : k ∈ (gather key empty add ∅ l).keys ↔ ∃ a ∈ l, key a = some k := by
  rw [← ofKey_ne_nil, Dict.mem_keys_iff]
  simp only [get_gather_empty]
  by_cases h : ofKey key k l = [] <;> simp [h]

/-! ## All buckets -/

theorem entries_gather (l : List α) : (gather key empty add ∅ l).entries =
    (gather key empty add ∅ l).keys.map fun k => (k, (ofKey key k l).foldl add empty) := by
  rw [Dict.keys, List.map_map]
  refine (List.map_id _).symm.trans (List.map_congr_left fun e he => ?_)
  exact Prod.ext rfl (mem_gather.1 he).2

theorem ofKey_flatMap_cons {ks : List K} (hnodup : ks.Nodup) {a : α} {k : K} (hk : k ∈ ks)
    (ha : key a = some k) (l : List α) :
    (ks.flatMap fun j => ofKey key j (a :: l)).Perm (a :: ks.flatMap fun j => ofKey key j l) := by
  induction ks with
  | nil => cases hk
  | cons j ks ih =>
    obtain ⟨hj, hnodup⟩ := List.nodup_cons.1 hnodup
    rw [List.flatMap_cons, List.flatMap_cons, ofKey_cons]
    by_cases hjk : j = k
    · subst hjk
      have hsame : (ks.flatMap fun i => ofKey key i (a :: l)) = ks.flatMap fun i => ofKey key i l := by
        refine List.flatMap_congr fun i hi => ?_
        rw [ofKey_cons, if_neg]
        rw [ha]
        rintro h
        cases h
        exact hj hi
      rw [if_pos ha, hsame, List.cons_append]
    · have hk : k ∈ ks := (List.mem_cons.1 hk).resolve_left (Ne.symm hjk)
      rw [if_neg fun h => hjk (Option.some.inj (h.symm.trans ha))]
      exact ((ih hnodup hk).append_left _).trans List.perm_middle

/-- **The elements with a key, bucket by bucket.** -/
theorem flatMap_ofKey_perm {ks : List K} (hnodup : ks.Nodup) {l : List α}
    (hcover : ∀ a ∈ l, ∀ k, key a = some k → k ∈ ks) :
    (ks.flatMap fun k => ofKey key k l).Perm (l.filter fun a => (key a).isSome) := by
  induction l with
  | nil => simp [ofKey]
  | cons a l ih =>
    have hrest := ih fun b hb => hcover b (List.mem_cons_of_mem _ hb)
    rw [List.filter_cons]
    cases ha : key a with
    | none =>
      have hsame : (ks.flatMap fun k => ofKey key k (a :: l)) = ks.flatMap fun k => ofKey key k l := by
        simp [ofKey_cons, ha]
      rw [hsame]
      simpa using hrest
    | some k => exact (ofKey_flatMap_cons hnodup (hcover a List.mem_cons_self k ha) ha l).trans (hrest.cons a)

/-! ## Sums -/

section
variable [AddCommMonoid M]

theorem sum_put {f : B → M} (hempty : f empty = 0) {es : List (K × B)} {k : K} {b : B} {w : M}
    (hb : f b = f ((Dict.lookup es k).getD empty) + w) :
    ((Dict.put es k b).map fun e => f e.2).sum = (es.map fun e => f e.2).sum + w := by
  induction es with
  | nil => simp [Dict.put, hb, Dict.lookup, hempty]
  | cons e es ih =>
    obtain ⟨j, c⟩ := e
    rw [Dict.put]
    by_cases h : j = k
    · subst h
      rw [if_pos rfl]
      simp only [Dict.lookup, if_true, Option.getD_some] at hb
      simp only [List.map_cons, List.sum_cons, hb]
      exact add_right_comm _ _ _
    · rw [if_neg h]
      rw [Dict.lookup, if_neg h] at hb
      simp only [List.map_cons, List.sum_cons, ih hb, add_assoc]

/-- A figure of the elements that have a key. -/
def weight (key : α → Option K) (w : α → M) (a : α) : M := if (key a).isSome then w a else 0

/-- **A figure that adds up inside a bucket adds up over all of them.** -/
theorem sum_gather {f : B → M} {w : α → M} (hempty : f empty = 0) (hadd : ∀ b a, f (add b a) = f b + w a) (l : List α)
    (d : Dict K B) : ((gather key empty add d l).entries.map fun e => f e.2).sum =
      (d.entries.map fun e => f e.2).sum + (l.map (weight key w)).sum := by
  induction l generalizing d with
  | nil => simp [gather]
  | cons a l ih =>
    rw [gather_cons, ih, List.map_cons, List.sum_cons, ← add_assoc]
    refine congrArg (· + _) ?_
    rw [step, weight]
    cases ha : key a with
    | none => simp
    | some k => exact sum_put hempty (hadd _ _)

end

end Gather
