import SlurmWeb.Lib.Dict

/-!
# Keys with other names

A value may be stored under its canonical key or under an alias. A reader pops the aliases of a field in turn, up to
the first value it stops at, and stores what it read under the canonical key.

* `absent_pop_iff` — no alias is left exactly where none stands behind the value the reader stopped at.
* `popAll_spec` — the fields do not disturb each other.
* `lawful_iff` — when a whole normalisation leaves no alias, reads the first value, and is stable.
-/

namespace AliasKeys

variable {K V : Type} [DecidableEq K]

open Dict

/-- `del items[key]` -/
def erase (key : K) (items : List (K × V)) : List (K × V) := items.filter fun e => decide (e.1 ≠ key)

theorem lookup_erase (key k : K) (items : List (K × V)) :
    lookup (erase key items) k = if key = k then none else lookup items k := by
  have h : lookup (erase key items) k = if decide (k ≠ key) then lookup items k else none :=
    lookup_filter (fun j => decide (j ≠ key)) items k
  rw [h]
  by_cases hk : key = k <;> simp [hk, eq_comm (a := k)]

section

variable (stop : V → Bool) (default : V)

/-- Pop the aliases in turn, up to the first value to stop at. -/
def pop : List K → List (K × V) → V × List (K × V)
  | [], items => (default, items)
  | key :: keys, items =>
    match lookup items key with
    | none => pop keys items
    | some value => if stop value then (value, erase key items) else pop keys (erase key items)

/-- Pop the aliases of one field after the other. -/
def popAll : List (List K) → List (K × V) → List V × List (K × V)
  | [], items => ([], items)
  | keys :: fields, items =>
    let popped := pop stop default keys items
    let rest := popAll fields popped.2
    (popped.1 :: rest.1, rest.2)

end

variable {stop : V → Bool} {default : V}

theorem lookup_pop_of_notMem {key : K} : ∀ {keys : List K} {items : List (K × V)}, key ∉ keys →
    lookup (pop stop default keys items).2 key = lookup items key
  | [], _, _ => rfl
  | k :: keys, items, h => by
    obtain ⟨hne, hkeys⟩ := List.ne_and_not_mem_of_not_mem_cons h
    have herase : lookup (erase k items) key = lookup items key := by rw [lookup_erase, if_neg (Ne.symm hne)]
    rw [pop]
    cases lookup items k with
    | none => exact lookup_pop_of_notMem hkeys
    | some value =>
      dsimp only
      split
      · exact herase
      · exact (lookup_pop_of_notMem hkeys).trans herase

/-- Only the aliases matter. -/
theorem pop_congr : ∀ {keys : List K} {items items' : List (K × V)},
    (∀ key ∈ keys, lookup items key = lookup items' key) →
    (pop stop default keys items).1 = (pop stop default keys items').1 ∧
      ∀ key ∈ keys, lookup (pop stop default keys items).2 key = lookup (pop stop default keys items').2 key
  | [], _, _, _ => ⟨rfl, nofun⟩
  | k :: keys, items, items', h => by
    have hk := h k List.mem_cons_self
    have hkeys : ∀ key ∈ keys, lookup items key = lookup items' key := fun key hkey =>
      h key (List.mem_cons_of_mem _ hkey)
    have herase : ∀ key ∈ k :: keys, lookup (erase k items) key = lookup (erase k items') key := by
      intro key hkey
      rw [lookup_erase, lookup_erase, h key hkey]
    rw [pop, pop, hk]
    cases hlookup : lookup items' k with
    | none =>
      obtain ⟨hvalue, hrest⟩ := @pop_congr keys items items' hkeys
      refine ⟨hvalue, fun key hkey => ?_⟩
      by_cases hmem : key ∈ keys
      · exact hrest key hmem
      · dsimp only
        rw [lookup_pop_of_notMem hmem, lookup_pop_of_notMem hmem, h key hkey]
    | some value =>
      dsimp only
      split
      · exact ⟨rfl, herase⟩
      · obtain ⟨hvalue, hrest⟩ := @pop_congr keys (erase k items) (erase k items') fun key hkey =>
          herase key (List.mem_cons_of_mem _ hkey)
        refine ⟨hvalue, fun key hkey => ?_⟩
        by_cases hmem : key ∈ keys
        · exact hrest key hmem
        · rw [lookup_pop_of_notMem hmem, lookup_pop_of_notMem hmem, herase key hkey]

/-- The value is the first one to stop at. -/
theorem pop_fst : ∀ {keys : List K} {items : List (K × V)}, keys.Nodup →
    (pop stop default keys items).1 = ((keys.filterMap (lookup items)).find? stop).getD default
  | [], _, _ => rfl
  | k :: keys, items, h => by
    obtain ⟨hk, hkeys⟩ := List.nodup_cons.1 h
    rw [pop, List.filterMap_cons]
    cases hlookup : lookup items k with
    | none => exact pop_fst hkeys
    | some value =>
      dsimp only
      rw [List.find?_cons]
      cases stop value with
      | true => rfl
      | false =>
        have hsame : ∀ key ∈ keys, lookup (erase k items) key = lookup items key := by
          intro key hkey
          rw [lookup_erase, if_neg fun heq : k = key => hk (heq ▸ hkey)]
        have hvalue := (@pop_congr _ _ _ stop default keys (erase k items) items hsame).1
        exact hvalue.trans (pop_fst hkeys)

theorem pop_of_absent : ∀ {keys : List K} {items : List (K × V)}, (∀ key ∈ keys, lookup items key = none) →
    pop stop default keys items = (default, items)
  | [], _, _ => rfl
  | k :: keys, items, h => by
    rw [pop, h k List.mem_cons_self]
    exact pop_of_absent fun key hkey => h key (List.mem_cons_of_mem _ hkey)

theorem popAll_of_absent : ∀ {fields : List (List K)} {items : List (K × V)},
    (∀ keys ∈ fields, ∀ key ∈ keys, lookup items key = none) →
      popAll stop default fields items = (fields.map fun _ => default, items)
  | [], _, _ => rfl
  | keys :: fields, items, h => by
    obtain ⟨hkeys, hfields⟩ := List.forall_mem_cons.1 h
    rw [popAll, pop_of_absent hkeys]
    dsimp only
    rw [popAll_of_absent hfields]
    rfl

theorem lookup_pop_head {key : K} {keys : List K} {items : List (K × V)} (h : key ∉ keys) :
    lookup (pop stop default (key :: keys) items).2 key = none := by
  have herase : lookup (erase key items) key = none := by rw [lookup_erase, if_pos rfl]
  rw [pop]
  cases hlookup : lookup items key with
  | none => exact (lookup_pop_of_notMem h).trans hlookup
  | some value =>
    dsimp only
    split
    · exact herase
    · exact (lookup_pop_of_notMem h).trans herase

/-- No alias is present behind one whose value stops the reader. -/
def Single (stop : V → Bool) (keys : List K) (items : List (K × V)) : Prop :=
  keys.Pairwise fun a b => ∀ value, lookup items a = some value → stop value = true → lookup items b = none

theorem single_congr {keys : List K} {items items' : List (K × V)}
    (h : ∀ key ∈ keys, lookup items key = lookup items' key) :
    Single stop keys items ↔ Single stop keys items' := by
  refine List.Pairwise.iff_of_mem fun {a b} ha hb => ?_
  rw [h a ha, h b hb]

theorem absent_pop_iff : ∀ {keys : List K} {items : List (K × V)}, keys.Nodup →
    ((∀ key ∈ keys, lookup (pop stop default keys items).2 key = none) ↔ Single stop keys items)
  | [], _, _ => ⟨fun _ => List.Pairwise.nil, fun _ => nofun⟩
  | k :: keys, items, h => by
    obtain ⟨hk, hkeys⟩ := List.nodup_cons.1 h
    have hsame : ∀ key ∈ keys, lookup (erase k items) key = lookup items key := by
      intro key hkey
      rw [lookup_erase, if_neg fun heq : k = key => hk (heq ▸ hkey)]
    rw [List.forall_mem_cons, lookup_pop_head hk, Single, List.pairwise_cons, pop]
    simp only [true_and]
    cases hlookup : lookup items k with
    | none =>
      rw [absent_pop_iff hkeys]
      exact ⟨fun hsingle => ⟨fun _ _ value hvalue => by simp at hvalue, hsingle⟩, fun hsingle => hsingle.2⟩
    | some value =>
      dsimp only
      cases hstop : stop value with
      | true =>
        rw [if_pos rfl]
        constructor
        · intro habsent
          have hnone : ∀ key ∈ keys, lookup items key = none := fun key hkey =>
            (hsame key hkey).symm.trans (habsent key hkey)
          refine ⟨fun key hkey _ _ _ => hnone key hkey, ?_⟩
          exact List.pairwise_of_forall_mem_list fun a _ b hb _ _ _ => hnone b hb
        · rintro ⟨hnone, -⟩ key hkey
          rw [hsame key hkey]
          exact hnone key hkey value rfl hstop
      | false =>
        rw [if_neg (by decide), absent_pop_iff hkeys, single_congr hsame]
        refine ⟨fun hsingle => ⟨fun _ _ value' hvalue' hstop' => ?_, hsingle⟩, fun hsingle => hsingle.2⟩
        obtain rfl := Option.some.inj hvalue'
        exact absurd (hstop.symm.trans hstop') (by decide)

/-- The fields do not disturb each other. -/
theorem popAll_spec : ∀ {fields : List (List K)}, fields.Pairwise List.Disjoint → ∀ items : List (K × V),
    (popAll stop default fields items).1 = fields.map (fun keys => (pop stop default keys items).1) ∧
      (∀ keys ∈ fields, ∀ key ∈ keys,
        lookup (popAll stop default fields items).2 key = lookup (pop stop default keys items).2 key) ∧
      ∀ key, (∀ keys ∈ fields, key ∉ keys) → lookup (popAll stop default fields items).2 key = lookup items key
  | [], _, _ => ⟨rfl, nofun, fun _ _ => rfl⟩
  | keys :: fields, h, items => by
    obtain ⟨hkeys, hfields⟩ := List.pairwise_cons.1 h
    obtain ⟨hvalues, hlookup, hother⟩ := @popAll_spec fields hfields (pop stop default keys items).2
    have hframe : ∀ keys' ∈ fields, ∀ key ∈ keys', lookup (pop stop default keys items).2 key = lookup items key :=
      fun keys' hkeys' key hkey => lookup_pop_of_notMem fun hmem => hkeys keys' hkeys' hmem hkey
    refine ⟨?_, ?_, ?_⟩
    · show (pop stop default keys items).1 :: _ = _
      rw [hvalues, List.map_cons]
      exact congrArg _ (List.map_congr_left fun keys' hkeys' => (pop_congr (hframe keys' hkeys')).1)
    · intro keys' hkeys' key hkey
      rcases List.mem_cons.1 hkeys' with rfl | hkeys'
      · exact hother key fun other hother hmem => hkeys other hother hkey hmem
      · exact (hlookup keys' hkeys' key hkey).trans ((pop_congr (hframe keys' hkeys')).2 key hkey)
    · intro key hkey
      obtain ⟨hhead, htail⟩ := List.forall_mem_cons.1 hkey
      exact (hother key htail).trans (lookup_pop_of_notMem hhead)

/-! ## Normalisation -/

/-- A value under a canonical key or another one; `none` is a value that counts as empty. -/
structure Field (K V : Type) where
  canonical : K
  others : List K
  convert : V → Option V

def Field.aliases (f : Field K V) : List K := f.canonical :: f.others

/-- No key belongs to two fields, or twice to one. -/
structure Distinct (fields : List (Field K V)) : Prop where
  nodup : ∀ f ∈ fields, f.aliases.Nodup
  disjoint : (fields.map Field.aliases).Pairwise List.Disjoint

def setAll : List (K × Option V) → List (K × V) → List (K × V)
  | [], items => items
  | (key, some value) :: entries, items => setAll entries (put items key value)
  | (_, none) :: entries, items => setAll entries items

/-- Pop the first present alias of every field, then set the canonical keys. -/
def normalise (default : V) (fields : List (Field K V)) (items : List (K × V)) : List (K × V) :=
  let popped := popAll (fun _ => true) default (fields.map Field.aliases) items
  setAll (List.zipWith (fun f value => (f.canonical, f.convert value)) fields popped.1) popped.2

/-- The value of the first present alias. -/
def first (default : V) (f : Field K V) (items : List (K × V)) : V := (pop (fun _ => true) default f.aliases items).1

theorem lookup_setAll_of_notMem {key : K} : ∀ {entries : List (K × Option V)} {items : List (K × V)},
    key ∉ entries.map Prod.fst → lookup (setAll entries items) key = lookup items key
  | [], _, _ => rfl
  | (k, value) :: entries, items, h => by
    obtain ⟨hne, hentries⟩ := List.ne_and_not_mem_of_not_mem_cons h
    cases value with
    | none => rw [setAll, lookup_setAll_of_notMem hentries]
    | some value =>
      rw [setAll, lookup_setAll_of_notMem hentries, lookup_put, if_neg (Ne.symm hne)]

theorem lookup_setAll {key : K} {value : Option V} : ∀ {entries : List (K × Option V)} {items : List (K × V)},
    (entries.map Prod.fst).Nodup → (key, value) ∈ entries →
      lookup (setAll entries items) key = value.or (lookup items key)
  | [], _, _, h => nomatch h
  | (k, v) :: entries, items, hnodup, h => by
    obtain ⟨hk, hentries⟩ := List.nodup_cons.1 hnodup
    rcases List.mem_cons.1 h with heq | hmem
    · obtain ⟨rfl, rfl⟩ := Prod.mk.inj heq
      cases value with
      | none => rw [setAll, lookup_setAll_of_notMem hk, Option.none_or]
      | some value => rw [setAll, lookup_setAll_of_notMem hk, lookup_put, if_pos rfl, Option.some_or]
    · have hkey : key ∈ entries.map Prod.fst := List.mem_map.2 ⟨_, hmem, rfl⟩
      have hne : k ≠ key := fun heq => hk (heq ▸ hkey)
      cases v with
      | none => rw [setAll, lookup_setAll hentries hmem]
      | some v => rw [setAll, lookup_setAll hentries hmem, lookup_put, if_neg hne]

section

variable {fields : List (Field K V)} (h : Distinct fields) (items : List (K × V))

include h

omit [DecidableEq K] in
theorem canonical_notMem {f g : Field K V} (hf : f ∈ fields) (hg : g ∈ fields) {key : K} (hkey : key ∈ f.others) :
    g.canonical ≠ key := by
  have hsymm : Std.Symm fun a b : Field K V => List.Disjoint a.aliases b.aliases := ⟨fun _ _ hab => hab.symm⟩
  rintro rfl
  by_cases heq : f = g
  · subst heq
    exact (List.nodup_cons.1 (h.nodup f hf)).1 hkey
  · exact (List.pairwise_map.1 h.disjoint).forall hf hg heq (List.mem_cons_of_mem _ hkey) List.mem_cons_self

theorem normalise_eq : normalise default fields items =
    setAll (fields.map fun f => (f.canonical, f.convert (first default f items)))
      (popAll (fun _ => true) default (fields.map Field.aliases) items).2 := by
  have hvalues := (@popAll_spec _ _ _ (fun _ => true) default _ h.disjoint items).1
  rw [normalise, hvalues, List.map_map, List.zipWith_map_right, List.zipWith_self]
  rfl

theorem lookup_canonical {f : Field K V} (hf : f ∈ fields) :
    lookup (normalise default fields items) f.canonical = f.convert (first default f items) := by
  have hnodup : ((fields.map fun f => (f.canonical, f.convert (first default f items))).map Prod.fst).Nodup := by
    rw [List.map_map, List.Nodup, List.pairwise_map]
    refine (List.pairwise_map.1 h.disjoint).imp fun {a b} hab (heq : a.canonical = b.canonical) => ?_
    exact hab List.mem_cons_self (heq ▸ List.mem_cons_self)
  have hpopped : lookup (popAll (fun _ => true) default (fields.map Field.aliases) items).2 f.canonical = none := by
    rw [(popAll_spec h.disjoint items).2.1 _ (List.mem_map_of_mem hf) _ List.mem_cons_self]
    exact lookup_pop_head (List.nodup_cons.1 (h.nodup f hf)).1
  rw [normalise_eq h, lookup_setAll hnodup (List.mem_map_of_mem hf), hpopped, Option.or_none]

theorem lookup_other {f : Field K V} (hf : f ∈ fields) {key : K} (hkey : key ∈ f.others) :
    lookup (normalise default fields items) key = lookup (pop (fun _ => true) default f.aliases items).2 key := by
  have hnotMem : key ∉ (fields.map fun f => (f.canonical, f.convert (first default f items))).map Prod.fst := by
    rw [List.map_map]
    rintro hmem
    obtain ⟨g, hg, hcanonical⟩ := List.mem_map.1 hmem
    exact canonical_notMem h hf hg hkey hcanonical
  rw [normalise_eq h, lookup_setAll_of_notMem hnotMem]
  exact (popAll_spec h.disjoint items).2.1 _ (List.mem_map_of_mem hf) _ (List.mem_cons_of_mem _ hkey)

theorem lookup_frame {key : K} (hkey : ∀ f ∈ fields, key ∉ f.aliases) :
    lookup (normalise default fields items) key = lookup items key := by
  have hnotMem : key ∉ (fields.map fun f => (f.canonical, f.convert (first default f items))).map Prod.fst := by
    rw [List.map_map]
    rintro hmem
    obtain ⟨f, hf, rfl⟩ := List.mem_map.1 hmem
    exact hkey f hf List.mem_cons_self
  rw [normalise_eq h, lookup_setAll_of_notMem hnotMem]
  refine (popAll_spec h.disjoint items).2.2 key fun keys hkeys => ?_
  obtain ⟨f, hf, rfl⟩ := List.mem_map.1 hkeys
  exact hkey f hf

end

/-- What is asked of a normalisation. -/
structure Lawful (default : V) (fields : List (Field K V)) (items : List (K × V)) : Prop where
  absent : ∀ f ∈ fields, ∀ key ∈ f.others, lookup (normalise default fields items) key = none
  value : ∀ f ∈ fields, lookup (normalise default fields items) f.canonical =
    f.aliases.findSome? fun key => (lookup items key).bind f.convert
  stable : ∀ key, lookup (normalise default fields (normalise default fields items)) key =
    lookup (normalise default fields items) key

/-- What is stored is read again as itself. -/
def Stable (f : Field K V) (value : V) : Prop := ∀ stored, f.convert value = some stored →
  f.convert stored = some stored

/-- One present alias at most: the first value is the one that any reader finds. -/
theorem findSome?_single {keys : List K} {items : List (K × V)}
    (hsingle : Single (fun _ => true) keys items) {c : V → Option V}
    (hdefault : c default = none) : keys.findSome? (fun key => (lookup items key).bind c) =
      c (((keys.filterMap (lookup items)).find? fun _ => true).getD default) := by
  induction keys with
  | nil => exact hdefault.symm
  | cons k keys ih =>
    obtain ⟨hhead, htail⟩ := List.pairwise_cons.1 hsingle
    rw [List.findSome?_cons, List.filterMap_cons]
    cases hlookup : lookup items k with
    | none => exact ih htail
    | some value =>
      have hnone : keys.findSome? (fun key => (lookup items key).bind c) = none := by
        rw [List.findSome?_eq_none_iff]
        intro key hkey
        rw [hhead key hkey value hlookup rfl, Option.bind_none]
      rw [Option.bind_some, hnone]
      dsimp only
      rw [List.find?_cons, Option.getD_some]
      cases c value <;> rfl

theorem first_eq_default_or {f : Field K V} (hnodup : f.aliases.Nodup) (items : List (K × V)) :
    first default f items = default ∨ ∃ key ∈ f.aliases, lookup items key = some (first default f items) := by
  rw [first, pop_fst hnodup]
  cases hfind : (f.aliases.filterMap (lookup items)).find? fun _ => true with
  | none => exact .inl rfl
  | some value =>
    obtain ⟨key, hkey, hlookup⟩ := List.mem_filterMap.1 (List.mem_of_find?_eq_some hfind)
    exact .inr ⟨key, hkey, hlookup⟩

/-- The value that stops the reader is the only one. -/
theorem find?_single {items : List (K × V)} {key : K} {value : V} (hlookup : lookup items key = some value)
    (hstop : stop value = true) : ∀ {keys : List K}, Single stop keys items → key ∈ keys →
      (keys.filterMap (lookup items)).find? stop = some value
  | [], _, h => nomatch h
  | k :: keys, hsingle, h => by
    obtain ⟨hhead, htail⟩ := List.pairwise_cons.1 hsingle
    rw [List.filterMap_cons]
    cases hk : lookup items k with
    | none =>
      have hne : key ≠ k := fun heq => by rw [heq, hk] at hlookup; cases hlookup
      exact find?_single hlookup hstop htail ((List.mem_cons.1 h).resolve_left hne)
    | some other =>
      dsimp only
      rw [List.find?_cons]
      cases hother : stop other with
      | true =>
        rcases List.mem_cons.1 h with rfl | hmem
        · exact hk.symm.trans hlookup
        · rw [hhead key hmem other hk hother] at hlookup
          cases hlookup
      | false =>
        have hne : key ≠ k := by
          rintro rfl
          rw [Option.some.inj (hk.symm.trans hlookup), hstop] at hother
          cases hother
        exact find?_single hlookup hstop htail ((List.mem_cons.1 h).resolve_left hne)

theorem first_of_single {f : Field K V} (hnodup : f.aliases.Nodup) {items : List (K × V)}
    (hsingle : Single (fun _ => true) f.aliases items) {key : K} (hkey : key ∈ f.aliases) {value : V}
    (hlookup : lookup items key = some value) : first default f items = value := by
  rw [first, pop_fst hnodup, find?_single hlookup rfl hsingle hkey]
  rfl

/-- Without other keys the canonical one is read. -/
theorem first_of_absent {f : Field K V} {items : List (K × V)} (h : ∀ key ∈ f.others, lookup items key = none) :
    first default f items = (lookup items f.canonical).getD default := by
  rw [first, Field.aliases, pop]
  cases lookup items f.canonical with
  | none =>
    dsimp only
    rw [pop_of_absent h]
    rfl
  | some value => rfl

section

variable {fields : List (Field K V)} (h : Distinct fields) (hdefault : ∀ f ∈ fields, f.convert default = none)
  (items : List (K × V))

include h

theorem absent_iff {f : Field K V} (hf : f ∈ fields) :
    (∀ key ∈ f.others, lookup (normalise default fields items) key = none) ↔
      Single (fun _ => true) f.aliases items := by
  rw [← @absent_pop_iff _ _ _ _ default _ _ (h.nodup f hf), Field.aliases, List.forall_mem_cons,
    lookup_pop_head (List.nodup_cons.1 (h.nodup f hf)).1]
  simp only [true_and]
  refine forall₂_congr fun key hkey => ?_
  rw [lookup_other h items hf hkey]
  rfl

include hdefault

/-- Without other keys left, a second normalisation reads what the first one stored. -/
theorem stable_iff (habsent : ∀ f ∈ fields, ∀ key ∈ f.others, lookup (normalise default fields items) key = none) :
    (∀ key, lookup (normalise default fields (normalise default fields items)) key =
      lookup (normalise default fields items) key) ↔ ∀ f ∈ fields, Stable f (first default f items) := by
  have hcanonical : ∀ f ∈ fields, (lookup (normalise default fields (normalise default fields items)) f.canonical =
      lookup (normalise default fields items) f.canonical ↔ Stable f (first default f items)) := by
    intro f hf
    rw [lookup_canonical h _ hf, first_of_absent (habsent f hf), lookup_canonical h _ hf, Stable]
    cases f.convert (first default f items) with
    | none => simp [hdefault f hf]
    | some stored => simp
  constructor
  · intro hstable f hf
    exact (hcanonical f hf).1 (hstable f.canonical)
  · intro hstable key
    by_cases hkey : ∃ f ∈ fields, key ∈ f.aliases
    · obtain ⟨f, hf, hmem⟩ := hkey
      rcases List.mem_cons.1 hmem with rfl | hother
      · exact (hcanonical f hf).2 (hstable f hf)
      · have hsingle : Single (fun _ => true) f.aliases (normalise default fields items) := by
          refine List.pairwise_cons.2 ⟨fun b hb _ _ _ => habsent f hf b hb, ?_⟩
          exact List.pairwise_of_forall_mem_list fun _ _ b hb _ _ _ => habsent f hf b hb
        rw [habsent f hf key hother]
        exact (absent_iff h _ hf).2 hsingle key hother
    · exact lookup_frame h _ fun f hf hmem => hkey ⟨f, hf, hmem⟩

/-- A normalisation is lawful exactly where no field has two keys, and what is stored is read again as itself. -/
theorem lawful_iff : Lawful default fields items ↔
    (∀ f ∈ fields, Single (fun _ => true) f.aliases items) ∧
      ∀ f ∈ fields, ∀ key ∈ f.aliases, ∀ value, lookup items key = some value → Stable f value := by
  constructor
  · intro hlawful
    have hsingle : ∀ f ∈ fields, Single (fun _ => true) f.aliases items := fun f hf =>
      (absent_iff h items hf).1 (hlawful.absent f hf)
    refine ⟨hsingle, fun f hf key hkey value hlookup => ?_⟩
    rw [← @first_of_single _ _ _ default f (h.nodup f hf) items (hsingle f hf) key hkey value hlookup]
    exact (stable_iff h hdefault items hlawful.absent).1 hlawful.stable f hf
  · rintro ⟨hsingle, hstable⟩
    have habsent : ∀ f ∈ fields, ∀ key ∈ f.others, lookup (normalise default fields items) key = none :=
      fun f hf => (absent_iff h items hf).2 (hsingle f hf)
    refine ⟨habsent, fun f hf => ?_, (stable_iff h hdefault items habsent).2 fun f hf => ?_⟩
    · rw [lookup_canonical h items hf, first, pop_fst (h.nodup f hf)]
      exact (findSome?_single (hsingle f hf) (hdefault f hf)).symm
    · rcases @first_eq_default_or _ _ _ default f (h.nodup f hf) items with hfirst | ⟨key, hkey, hlookup⟩
      · intro stored hstored
        rw [hfirst, hdefault f hf] at hstored
        cases hstored
      · exact hstable f hf key hkey _ hlookup

end

end AliasKeys
