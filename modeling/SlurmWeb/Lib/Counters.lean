import Mathlib

/-!
# Tables of counters

A table lists keys, each with a figure. Adding to a key changes that key's figure alone.

* `total_add` — an addition to one of the keys is an addition to the total.
* `add_eq` — a table given by a function of the keys stays one.
-/

namespace Counters

variable {K M : Type} [DecidableEq K] [AddCommMonoid M]

/-- `table[key] += m` -/
def add (key : K) (m : M) (table : List (K × M)) : List (K × M) :=
  table.map fun entry => if entry.1 = key then (entry.1, entry.2 + m) else entry

def total (table : List (K × M)) : M := (table.map Prod.snd).sum

/-- The table of a function. -/
def table (keys : List K) (f : K → M) : List (K × M) := keys.map fun key => (key, f key)

@[simp] theorem keys_add (key : K) (m : M) (table : List (K × M)) :
    (add key m table).map Prod.fst = table.map Prod.fst := by
  rw [add, List.map_map]
  refine List.map_congr_left fun entry _ => ?_
  dsimp only [Function.comp_apply]
  split <;> rfl

theorem add_of_notMem {key : K} (m : M) {table : List (K × M)} (h : key ∉ table.map Prod.fst) :
    add key m table = table := by
  refine (List.map_congr_left fun entry hentry => ?_).trans (List.map_id table)
  exact if_neg fun heq : entry.1 = key => h (heq ▸ List.mem_map_of_mem hentry)

theorem total_add {key : K} (m : M) {table : List (K × M)} (hnodup : (table.map Prod.fst).Nodup)
    (h : key ∈ table.map Prod.fst) : total (add key m table) = total table + m := by
  induction table with
  | nil => cases h
  | cons entry table ih =>
    obtain ⟨hentry, htable⟩ := List.nodup_cons.1 hnodup
    have hcons : add key m (entry :: table) = (if entry.1 = key then (entry.1, entry.2 + m) else entry) ::
        add key m table := rfl
    have htotal : ∀ (e : K × M) (t : List (K × M)), total (e :: t) = e.2 + total t := fun e t => List.sum_cons
    rw [hcons, htotal, htotal]
    rcases eq_or_ne entry.1 key with rfl | hne
    · rw [if_pos rfl, add_of_notMem m hentry]
      exact add_right_comm _ _ _
    · have hmem := (List.mem_cons.1 h).resolve_left (Ne.symm hne)
      rw [if_neg hne, ih htable hmem, add_assoc]

theorem add_eq (key : K) (m : M) (keys : List K) (f : K → M) :
    add key m (table keys f) = table keys fun k => f k + if k = key then m else 0 := by
  rw [add, table, List.map_map]
  refine List.map_congr_left fun k _ => ?_
  dsimp only [Function.comp_apply]
  split <;> simp

end Counters
