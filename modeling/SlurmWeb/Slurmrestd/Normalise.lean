import SlurmWeb.Assistant.Tools
import SlurmWeb.Slurmrestd.PartitionCounts
import SlurmWeb.Lib.AliasKeys
import SlurmWeb.Lib.Split

/-!
# Reservations and QOS entries (slurmweb/slurmrestd/__init__.py :259-486)

Requests may name a field in several ways. The client stores what they hold under the name of slurmrestd.

| here | there |
| --- | --- |
| `reservationCsv`, `reservationTime` | `_reservation_csv` (:412), `_reservation_time` (:427) |
| `normalizeReservationPayload` | `_normalize_reservation_payload` (:437) |
| `normalizedQos` | `_normalize_single_qos` (:309), the entry it returns |
| `qosAfter` | the entry it was given, afterwards (Assistant/Tools.lean) |

`pop_aliases` and `_pop_first` both stop at a name and leave the ones behind it. The first one stops at an
empty value, too. The copy of a QOS is shallow: limits that are missing are written in the `limits` of the
caller.

* `csv_stable_iff` — which lists are read again as themselves.
* `valueAt_complete` — every missing limit is set, and nothing else.
* `normalisation_iff` — when an entry is left without aliases, is stable, and was not changed in its caller's hands.
-/

namespace SlurmWeb.Slurmrestd

open Strings Py Assistant AliasKeys

variable {F : Type} [Python F]

/-! ## Reservations -/

/-- The `values` of `_reservation_csv` (:414). -/
def csvItems : Value F → List Str
  | .none => []
  | .str value => nonBlank (value.splitOn ',')
  | .list value => nonBlank (value.map Value.toStr)
  | value => nonBlank [value.toStr]

/-- `_reservation_csv` (:412) -/
def reservationCsv (value : Value F) : Option Str :=
  if value.isBlank || (csvItems value).isEmpty then none else some ([','].intercalate (csvItems value))

/-- `_reservation_time` (:427) -/
def reservationTime : Value F → Value F
  | .dict value =>
    match Value.lookup value "set", Value.lookup value "number" with
    | some set, some number => .dict [("set", .bool set.truthy), ("number", number)]
    | _, _ => .dict value
  | value => value

/-- The lists, by canonical key, and the aliases behind it (:451-462). -/
def csvKeys : List (Str × List Str) :=
  [("users", ["Users"]), ("groups", ["Groups"]), ("accounts", ["Accounts"]), ("qos", ["QOS", "Qos"]),
    ("partition", ["Partition", "allowed_partitions", "allowedPartitions", "AllowedPartitions"])]

/-- The times (:463). -/
def timeKeys : List (Str × List Str) := [("start_time", ["StartTime"]), ("end_time", ["EndTime"])]

def csvField (keys : Str × List Str) : Field Str (Value F) where
  canonical := keys.1
  others := keys.2
  convert value := (reservationCsv value).map .str

def timeField (keys : Str × List Str) : Field Str (Value F) where
  canonical := keys.1
  others := keys.2
  convert value := if value.isNone then none else some (reservationTime value)

def reservationFields : List (Field Str (Value F)) := csvKeys.map csvField ++ timeKeys.map timeField

/-- `_normalize_reservation_payload` (:437), of a `dict`. -/
def normalizeReservationPayload (payload : Arguments F) : Arguments F := normalise .none reservationFields payload

/-- A payload as its caller sees it afterwards: nothing below the copy is written. -/
def reservationAfter (payload : Arguments F) : Arguments F := payload

/-! ## QOS -/

/-- A limit, the aliases of its value, and what it is without one. -/
structure Limit where
  aliases : List Str
  default : Int
  parents : List Str
  key : Str

def Limit.path (limit : Limit) : List Str := limit.parents ++ [limit.key]

/-- The limits of `_normalize_single_qos` (:313-350). -/
def qosLimits : List Limit :=
  [⟨["max_submit_jobs_per_user", "MaxSubmitJobsPerUser", "maxSubmitJobsPerUser"], 100, ["max", "jobs", "per"], "user"⟩,
    ⟨["max_jobs_per_user", "MaxJobsPerUser", "maxJobsPerUser"], 10, ["max", "jobs", "active_jobs", "per"], "user"⟩,
    ⟨["max_wall_duration_per_job", "MaxWallDurationPerJob", "maxWallDurationPerJob"], 8640,
      ["max", "wall_clock", "per"], "job"⟩]

/-- The limits one after the other (:333-350). -/
def complete (values : List (Limit × Value F)) (limits : Arguments F) : Arguments F :=
  values.foldl (fun limits entry => setLimitIfMissing entry.2 entry.1.default entry.1.parents entry.1.key limits) limits

/-- `_nested_dict(qos, "limits")` (:259) -/
def limitsOf (qos : Arguments F) : Arguments F :=
  match argument qos "limits" with
  | .dict limits => limits
  | _ => []

/-- `_normalize_single_qos` (:309), of a `dict`. -/
def normalizedQos (qos : Arguments F) : Arguments F :=
  let popped := popAll (fun value => !value.isBlank) .none (qosLimits.map Limit.aliases) qos
  Dict.put popped.2 "limits" (.dict (complete (qosLimits.zip popped.1) (limitsOf popped.2)))

/-! ## Lists of reservations -/

omit [Python F] in
theorem lookup_eq (items : Arguments F) (key : Str) : Value.lookup items key = Dict.lookup items key := by
  induction items with
  | nil => rfl
  | cons item items ih => rw [Value.lookup, Dict.lookup, ih]

/-- No item has a part between its commas that is empty or starts or ends with a blank. -/
def Clean (value : Value F) : Prop := ∀ item ∈ csvItems value, ∀ part ∈ item.splitOn ',', part ≠ [] ∧ strip part = part

theorem nonBlank_eq_self_iff {parts : List Str} : nonBlank parts = parts ↔ ∀ part ∈ parts, part ≠ [] ∧
    strip part = part := by
  have hmap : parts.map strip = parts ↔ ∀ part ∈ parts, strip part = part := by
    conv_lhs => rhs; rw [← List.map_id parts]
    exact List.map_inj_left
  constructor
  · intro h
    have hsub : List.Sublist parts (parts.map strip) := by
      conv_lhs => rw [← h]
      exact List.filter_sublist
    have hstripped := hmap.1 (hsub.eq_of_length (by rw [List.length_map])).symm
    intro part hpart
    refine ⟨?_, hstripped part hpart⟩
    rw [← h] at hpart
    simpa using List.of_mem_filter hpart
  · intro h
    rw [nonBlank, hmap.2 fun part hpart => (h part hpart).2, List.filter_eq_self]
    exact fun part hpart => by simpa using (h part hpart).1

/-- A piece of a list has no comma. -/
theorem comma_notMem {s part : Str} (h : part ∈ nonBlank (s.splitOn ',')) : ',' ∉ part := by
  obtain ⟨piece, hpiece, rfl⟩ := List.mem_map.1 (List.mem_of_mem_filter h)
  exact fun hmem => not_mem_of_mem_splitOn hpiece (mem_stripBy hmem)

/-- A text is read as itself where its parts are not empty and have no blanks around them. -/
theorem csv_str_iff (s : Str) : reservationCsv (.str s : Value F) = some s ↔
    nonBlank (s.splitOn ',') = s.splitOn ',' := by
  have hempty : nonBlank (([] : Str).splitOn ',') ≠ ([] : Str).splitOn ',' := by decide
  have hitems : csvItems (.str s : Value F) = nonBlank (s.splitOn ',') := rfl
  rw [reservationCsv, hitems]
  constructor
  · intro h
    split at h
    · cases h
    next hnot =>
      have hne : nonBlank (s.splitOn ',') ≠ [] := by
        intro hnil
        rw [hnil] at hnot
        exact hnot (by simp)
      rw [← List.splitOn_intercalate ',' (fun part hpart => comma_notMem hpart) hne, Option.some.inj h]
  · intro h
    have hs : s ≠ [] := fun hs => hempty (hs ▸ h)
    have hblank : (Value.str s : Value F).isBlank = false := by
      obtain ⟨c, t, rfl⟩ := List.exists_cons_of_ne_nil hs
      rfl
    rw [h, hblank, if_neg (by simp), List.intercalate_splitOn]

theorem csvItems_of_none {value : Value F} (h : reservationCsv value = none) : csvItems value = [] := by
  rw [reservationCsv] at h
  split at h
  next hnone =>
    rcases Bool.or_eq_true_iff.1 hnone with hblank | hitems
    · cases value with
      | none => rfl
      | str s =>
        cases s with
        | nil => show nonBlank (([] : Str).splitOn ',') = []; decide
        | cons c s => cases hblank
      | _ => cases hblank
    · exact List.isEmpty_iff.1 hitems
  next => cases h

/-- What is stored of a list is read again as itself where no item hides blanks or empty parts behind a comma. -/
theorem csv_stable_iff (keys : Str × List Str) (value : Value F) : Stable (csvField keys) value ↔ Clean value := by
  cases hcsv : reservationCsv value with
  | none =>
    rw [Clean, csvItems_of_none hcsv]
    have hnone : (csvField keys).convert value = none := congrArg (Option.map Value.str) hcsv
    refine ⟨fun _ => nofun, fun _ stored hstored => ?_⟩
    rw [hnone] at hstored
    cases hstored
  | some s =>
    have hvalue : ¬ (value.isBlank || (csvItems value).isEmpty) = true ∧ [','].intercalate (csvItems value) = s := by
      rw [reservationCsv] at hcsv
      split at hcsv
      · cases hcsv
      next hnot => exact ⟨hnot, Option.some.inj hcsv⟩
    have hitems : csvItems value ≠ [] := fun hnil => hvalue.1 (by rw [hnil]; simp)
    have hstable : Stable (csvField keys) value ↔ reservationCsv (.str s : Value F) = some s := by
      have hstored : (csvField keys).convert value = some (.str s) := congrArg (Option.map Value.str) hcsv
      have hagain : (csvField keys).convert (.str s : Value F) = (reservationCsv (.str s)).map .str := rfl
      rw [Stable, hstored]
      simp only [Option.some.injEq, forall_eq', hagain, Option.map_eq_some_iff, Value.str.injEq, exists_eq_right]
    rw [hstable, csv_str_iff, nonBlank_eq_self_iff, ← hvalue.2, splitOn_intercalate_eq ',' hitems, Clean]
    simp only [List.mem_flatMap, forall_exists_index, and_imp]
    exact ⟨fun h item hitem part hpart => h part item hitem hpart, fun h part item hitem hpart =>
      h item hitem part hpart⟩

theorem reservationTime_idempotent (value : Value F) :
    reservationTime (reservationTime value) = reservationTime value := by
  cases value with
  | dict items =>
    rw [reservationTime]
    split
    next set number hset hnumber =>
      rw [reservationTime]
      dsimp only [Value.lookup]
      rfl
    next hmissing =>
      rw [reservationTime]
      split
      next set number hset hnumber => exact absurd hnumber (hmissing set number hset)
      next => rfl
  | _ => rfl

theorem time_stable (keys : Str × List Str) (value : Value F) : Stable (timeField keys) value := by
  intro stored hstored
  have hconvert : ∀ v : Value F, (timeField keys).convert v = if v.isNone then
      none else some (reservationTime v) := fun _ => rfl
  rw [hconvert] at hstored ⊢
  split at hstored
  next => cases hstored
  next hnotNone =>
    obtain rfl := Option.some.inj hstored
    have hnone : (reservationTime value).isNone = false := by
      cases value with
      | none => exact absurd rfl hnotNone
      | dict items =>
        rw [reservationTime]
        split <;> rfl
      | _ => rfl
    rw [hnone, if_neg (by decide), reservationTime_idempotent]

/-! ## When a reservation is normalised -/

theorem fields_distinct : Distinct (reservationFields : List (Field Str (Value F))) := by
  have haliases : (reservationFields : List (Field Str (Value F))).map Field.aliases =
      (csvKeys ++ timeKeys).map fun keys => keys.1 :: keys.2 := rfl
  refine ⟨fun f hf => ?_, ?_⟩
  · have hmem : f.aliases ∈ (csvKeys ++ timeKeys).map fun keys => keys.1 :: keys.2 := haliases ▸ List.mem_map_of_mem hf
    have hnodup : ∀ keys ∈ (csvKeys ++ timeKeys).map fun keys => keys.1 :: keys.2, keys.Nodup := by decide
    exact hnodup _ hmem
  · rw [haliases]
    have hdisjoint : ((csvKeys ++ timeKeys).map fun keys => keys.1 :: keys.2).Pairwise fun a b => ∀ key ∈ a,
        key ∉ b := by decide
    exact hdisjoint.imp fun hab key ha hb => hab key ha hb

/-- A reservation is left without aliases, holds the first value that is not empty, is stable, and was a copy. -/
structure ReservationLawful (payload : Arguments F) : Prop where
  lawful : Lawful .none reservationFields payload
  unchanged : reservationAfter payload = payload

/-- No field has two keys; no item of a list hides blanks or empty parts behind a comma. -/
structure ReservationFits (payload : Arguments F) : Prop where
  single : ∀ keys ∈ csvKeys ++ timeKeys, Single (fun _ => true) (keys.1 :: keys.2) payload
  clean : ∀ keys ∈ csvKeys, ∀ key ∈ keys.1 :: keys.2, ∀ value, Value.lookup payload key = some value → Clean value

theorem reservation_iff (payload : Arguments F) : ReservationLawful payload ↔ ReservationFits payload := by
  have hdefault : ∀ f ∈ (reservationFields : List (Field Str (Value F))), f.convert .none = none := by
    intro f hf
    rcases List.mem_append.1 hf with hf | hf
    · obtain ⟨keys, -, rfl⟩ := List.mem_map.1 hf
      rfl
    · obtain ⟨keys, -, rfl⟩ := List.mem_map.1 hf
      rfl
  have hlawful := lawful_iff fields_distinct hdefault payload
  constructor
  · rintro ⟨h, -⟩
    obtain ⟨hsingle, hstable⟩ := hlawful.1 h
    refine ⟨fun keys hkeys => ?_, fun keys hkeys key hkey value hlookup => ?_⟩
    · rcases List.mem_append.1 hkeys with hkeys | hkeys
      · exact hsingle (csvField keys) (List.mem_append_left _ (List.mem_map_of_mem hkeys))
      · exact hsingle (timeField keys) (List.mem_append_right _ (List.mem_map_of_mem hkeys))
    · rw [lookup_eq] at hlookup
      exact (csv_stable_iff keys value).1
        (hstable (csvField keys) (List.mem_append_left _ (List.mem_map_of_mem hkeys)) key hkey value hlookup)
  · rintro ⟨hsingle, hclean⟩
    refine ⟨hlawful.2 ⟨fun f hf => ?_, fun f hf key hkey value hlookup => ?_⟩, rfl⟩
    · rcases List.mem_append.1 hf with hf | hf
      · obtain ⟨keys, hkeys, rfl⟩ := List.mem_map.1 hf
        exact hsingle keys (List.mem_append_left _ hkeys)
      · obtain ⟨keys, hkeys, rfl⟩ := List.mem_map.1 hf
        exact hsingle keys (List.mem_append_right _ hkeys)
    · rcases List.mem_append.1 hf with hf | hf
      · obtain ⟨keys, hkeys, rfl⟩ := List.mem_map.1 hf
        exact (csv_stable_iff keys value).2 (hclean keys hkeys key hkey value ((lookup_eq payload key).trans hlookup))
      · obtain ⟨keys, -, rfl⟩ := List.mem_map.1 hf
        exact time_stable keys value

/-! ## Nested limits -/

/-- The value under a path of keys. -/
def valueAt : List Str → Value F → Option (Value F)
  | [], value => some value
  | key :: keys, .dict items => (Value.lookup items key).bind (valueAt keys)
  | _ :: _, _ => none

/-- A `dict` with one of the keys of a limit. -/
def isLimit : Value F → Bool
  | .dict limit => limit.any fun item => item.1 ∈ ["set".toList, "infinite", "number"]
  | _ => false

/-- Neither path leads through the other. -/
def Apart (p q : List Str) : Prop := ¬ p <+: q ∧ ¬ q <+: p

omit [Python F]

theorem hasLimit_eq : ∀ (path : List Str) (value : Value F), hasLimit path value = (valueAt path value).any isLimit
  | [], value => by cases value <;> rfl
  | key :: keys, value => by
    cases value with
    | dict items =>
      rw [hasLimit, valueAt]
      cases Value.lookup items key with
      | none => rfl
      | some value => exact hasLimit_eq keys value
    | _ => rfl

theorem isLimit_qosLimit (value : Value F) : isLimit (qosLimit value) = true ↔ ∀ d, value = .dict d →
    isLimit (.dict d) = true := by
  cases value with
  | dict d =>
    refine ⟨fun h d' hd => ?_, fun h => h d rfl⟩
    obtain rfl := Value.dict.inj hd
    exact h
  | _ => exact iff_of_true rfl nofun

theorem lookup_put_eq (items : Arguments F) (key k : Str) (value : Value F) :
    Value.lookup (Dict.put items key value) k = if key = k then some value else Value.lookup items k := by
  rw [lookup_eq, lookup_eq, Dict.lookup_put]

theorem valueAt_setNested_self (key : Str) (value : Value F) : ∀ (parents : List Str) (root : Arguments F),
    valueAt (parents ++ [key]) (.dict (setNested key value parents root)) = some value
  | [], root => by
    rw [List.nil_append, valueAt, setNested, lookup_put_eq, if_pos rfl]
    rfl
  | next :: parents, root => by
    rw [List.cons_append, valueAt, setNested, lookup_put_eq, if_pos rfl]
    exact valueAt_setNested_self key value parents _

/-- What is under another path stays. -/
theorem valueAt_setNested_of_apart (key : Str) (value : Value F) : ∀ (parents : List Str) {path : List Str}
    (root : Arguments F),
    Apart (parents ++ [key]) path → valueAt path (.dict (setNested key value parents root)) = valueAt path (.dict root)
  | parents, [], _, h => absurd (List.nil_prefix) h.2
  | [], k :: path, root, h => by
    have hne : key ≠ k := by
      rintro rfl
      exact h.1 (List.cons_prefix_cons.2 ⟨rfl, List.nil_prefix⟩)
    rw [valueAt, setNested, lookup_put_eq, if_neg hne, valueAt]
  | next :: parents, k :: path, root, h => by
    rw [valueAt, setNested, lookup_put_eq, valueAt]
    by_cases hk : next = k
    · subst hk
      have hapart : Apart (parents ++ [key]) path :=
        ⟨fun hp => h.1 (List.cons_prefix_cons.2 ⟨rfl, hp⟩), fun hp => h.2 (List.cons_prefix_cons.2 ⟨rfl, hp⟩)⟩
      have hpath : ∃ j rest, path = j :: rest := List.exists_cons_of_ne_nil fun hnil =>
        hapart.2 (hnil ▸ List.nil_prefix)
      rw [if_pos rfl, Option.bind_some, valueAt_setNested_of_apart key value parents _ hapart, argument]
      obtain ⟨j, rest, rfl⟩ := hpath
      cases Value.lookup root next with
      | none => rfl
      | some child => cases child <;> rfl
    · rw [if_neg hk]

/-- The value a limit gets that is missing. -/
def given (entry : Limit × Value F) : Value F := if entry.2.isNone then .int entry.1.default else entry.2

/-- A limit that is there, or the one it gets. -/
def stored (entry : Limit × Value F) (limits : Arguments F) : Option (Value F) :=
  if hasLimit entry.1.path (.dict limits) then valueAt entry.1.path (.dict limits) else some (qosLimit (given entry))

theorem valueAt_setLimit_self (entry : Limit × Value F) (limits : Arguments F) :
    valueAt entry.1.path (.dict (setLimitIfMissing entry.2 entry.1.default entry.1.parents entry.1.key limits)) =
      stored entry limits := by
  rw [setLimitIfMissing, stored, Limit.path]
  split
  · rfl
  · exact valueAt_setNested_self _ _ _ _

theorem valueAt_setLimit_of_apart (entry : Limit × Value F) {path : List Str} (h : Apart entry.1.path path)
    (limits : Arguments F) :
    valueAt path (.dict (setLimitIfMissing entry.2 entry.1.default entry.1.parents entry.1.key limits)) =
      valueAt path (.dict limits) := by
  rw [setLimitIfMissing]
  split
  · rfl
  · exact valueAt_setNested_of_apart _ _ _ _ h

theorem valueAt_complete : ∀ {entries : List (Limit × Value F)}, entries.Pairwise (fun a b => Apart a.1.path b.1.path) →
    ∀ limits : Arguments F,
      (∀ entry ∈ entries, valueAt entry.1.path (.dict (complete entries limits)) = stored entry limits) ∧
      ∀ path, (∀ entry ∈ entries, Apart entry.1.path path) →
        valueAt path (.dict (complete entries limits)) = valueAt path (.dict limits)
  | [], _, limits => ⟨nofun, fun _ _ => rfl⟩
  | entry :: entries, h, limits => by
    obtain ⟨hentry, hentries⟩ := List.pairwise_cons.1 h
    obtain ⟨hstored, hother⟩ := valueAt_complete hentries
      (setLimitIfMissing entry.2 entry.1.default entry.1.parents entry.1.key limits)
    have hcons : complete (entry :: entries) limits =
        complete entries (setLimitIfMissing entry.2 entry.1.default entry.1.parents entry.1.key limits) := rfl
    rw [hcons]
    refine ⟨fun other hmem => ?_, fun path hpath => ?_⟩
    · rcases List.mem_cons.1 hmem with rfl | hmem
      · rw [hother _ fun e he => (hentry e he).symm, valueAt_setLimit_self]
      · rw [hstored other hmem, stored, stored, hasLimit_eq, hasLimit_eq,
          valueAt_setLimit_of_apart entry (hentry other hmem)]
    · obtain ⟨hhead, htail⟩ := List.forall_mem_cons.1 hpath
      rw [hother path htail, valueAt_setLimit_of_apart entry hhead]

theorem complete_of_present : ∀ {entries : List (Limit × Value F)} {limits : Arguments F},
    (∀ entry ∈ entries, hasLimit entry.1.path (.dict limits) = true) → complete entries limits = limits
  | [], _, _ => rfl
  | entry :: entries, limits, h => by
    obtain ⟨hentry, hentries⟩ := List.forall_mem_cons.1 h
    have hstep : setLimitIfMissing entry.2 entry.1.default entry.1.parents entry.1.key limits = limits := if_pos hentry
    show complete entries (setLimitIfMissing entry.2 entry.1.default entry.1.parents entry.1.key limits) = limits
    rw [hstep]
    exact complete_of_present hentries

/-- A limit is there afterwards if it was, or if it gets one. -/
theorem hasLimit_complete {entries : List (Limit × Value F)} (h : entries.Pairwise fun a b => Apart a.1.path b.1.path)
    {limits : Arguments F} {entry : Limit × Value F} (hentry : entry ∈ entries) :
    hasLimit entry.1.path (.dict (complete entries limits)) = true ↔
      hasLimit entry.1.path (.dict limits) = true ∨ isLimit (qosLimit (given entry)) = true := by
  rw [hasLimit_eq, (valueAt_complete h limits).1 entry hentry, stored]
  split
  next hhas => simpa [hhas] using (hasLimit_eq _ _).symm.trans hhas
  next hhas => simp [hhas]

/-! ## When a QOS is normalised -/

/-- The limits with the values that the aliases hold. -/
def qosEntries (qos : Arguments F) : List (Limit × Value F) := qosLimits.map fun limit =>
  (limit, popFirst qos limit.aliases)

theorem complete_qosEntries (qos limits : Arguments F) :
    complete (qosEntries qos) limits = normalizeSingleQos qos limits := rfl

theorem qosLimits_nodup : ∀ limit ∈ qosLimits, limit.aliases.Nodup := by decide

theorem qosLimits_disjoint : (qosLimits.map Limit.aliases).Pairwise List.Disjoint := by
  have h : (qosLimits.map Limit.aliases).Pairwise fun a b => ∀ key ∈ a, key ∉ b := by decide
  exact h.imp fun hab key ha hb => hab key ha hb

theorem limits_not_alias : ∀ limit ∈ qosLimits, "limits".toList ∉ limit.aliases := by decide

theorem qosLimits_apart : qosLimits.Pairwise fun a b => Apart a.path b.path := by
  unfold Apart
  decide

theorem qosEntries_apart (values : Limit → Value F) :
    (qosLimits.map fun limit => (limit, values limit)).Pairwise fun a b => Apart a.1.path b.1.path :=
  List.pairwise_map.2 qosLimits_apart

theorem popFirst_eq (qos : Arguments F) {limit : Limit} (h : limit ∈ qosLimits) :
    (pop (fun value => !value.isBlank) .none limit.aliases qos).1 = popFirst qos limit.aliases := by
  rw [pop_fst (qosLimits_nodup limit h), popFirst]
  have hlookup : Dict.lookup qos = Value.lookup qos := funext fun key => (lookup_eq qos key).symm
  rw [hlookup]

/-- The entry without its aliases. -/
def qosRest (qos : Arguments F) : Arguments F :=
  (popAll (fun value => !value.isBlank) .none (qosLimits.map Limit.aliases) qos).2

theorem lookup_qosRest_limits (qos : Arguments F) :
    Value.lookup (qosRest qos) "limits" = Value.lookup qos "limits" := by
  rw [lookup_eq, lookup_eq]
  refine (popAll_spec qosLimits_disjoint qos).2.2 _ fun keys hkeys => ?_
  obtain ⟨limit, hlimit, rfl⟩ := List.mem_map.1 hkeys
  exact limits_not_alias limit hlimit

theorem normalizedQos_eq (qos : Arguments F) :
    normalizedQos qos = Dict.put (qosRest qos) "limits" (.dict (complete (qosEntries qos) (limitsOf qos))) := by
  have hlimits : limitsOf (qosRest qos) = limitsOf qos := by
    rw [limitsOf, argument, lookup_qosRest_limits, limitsOf, argument]
  have hvalues : qosLimits.zip (popAll (fun value => !value.isBlank) .none (qosLimits.map Limit.aliases)
      qos).1 = qosEntries qos := by
    rw [(popAll_spec qosLimits_disjoint qos).1, List.map_map, List.zip, List.zipWith_map_right,
      List.zipWith_self, qosEntries]
    exact List.map_congr_left fun limit hlimit => congrArg (Prod.mk limit) (popFirst_eq qos hlimit)
  rw [normalizedQos, hvalues]
  show Dict.put (qosRest qos) "limits" (.dict (complete (qosEntries qos) (limitsOf (qosRest qos)))) = _
  rw [hlimits]

theorem lookup_normalizedQos_limits (qos : Arguments F) :
    Value.lookup (normalizedQos qos) "limits" = some (.dict (complete (qosEntries qos) (limitsOf qos))) := by
  rw [normalizedQos_eq, lookup_put_eq, if_pos rfl]

theorem lookup_normalizedQos_alias (qos : Arguments F) {limit : Limit} (hlimit : limit ∈ qosLimits) {key : Str}
    (hkey : key ∈ limit.aliases) : Value.lookup (normalizedQos qos) key =
      Dict.lookup (pop (fun value => !value.isBlank) .none limit.aliases qos).2 key := by
  have hne : "limits".toList ≠ key := fun heq => limits_not_alias limit hlimit (heq ▸ hkey)
  rw [normalizedQos_eq, lookup_put_eq, if_neg hne, lookup_eq]
  exact (popAll_spec qosLimits_disjoint qos).2.1 _ (List.mem_map_of_mem hlimit) _ hkey

theorem path_cons {limit : Limit} (h : limit ∈ qosLimits) : ∃ key rest, limit.path = key :: rest := by
  have hpath : ∀ limit ∈ qosLimits, limit.path ≠ [] := by decide
  exact List.exists_cons_of_ne_nil (hpath limit h)

/-- A limit of the entry is one of its `limits`. -/
theorem valueAt_limits (qos : Arguments F) {limit : Limit} (hlimit : limit ∈ qosLimits) :
    valueAt ("limits" :: limit.path) (.dict qos) = valueAt limit.path (.dict (limitsOf qos)) := by
  obtain ⟨key, rest, hcons⟩ := path_cons hlimit
  rw [hcons, valueAt, limitsOf, argument]
  cases Value.lookup qos "limits".toList with
  | none => rfl
  | some value => cases value <;> rfl

/-- A QOS is left without aliases, holds the limits it had or the first values that are not empty, is
stable, and was not changed in its caller's hands. -/
structure QosLawful (qos : Arguments F) : Prop where
  absent : ∀ limit ∈ qosLimits, ∀ key ∈ limit.aliases, Value.lookup (normalizedQos qos) key = none
  value : ∀ limit ∈ qosLimits, valueAt ("limits" :: limit.path) (.dict (normalizedQos qos)) =
    if hasLimit ("limits" :: limit.path) (.dict qos) then valueAt ("limits" :: limit.path) (.dict qos)
    else some (qosLimit ((limit.aliases.findSome? fun key =>
      (Value.lookup qos key).filter fun value => !value.isBlank).getD
      (.int limit.default)))
  stable : normalizedQos (normalizedQos qos) = normalizedQos qos
  unchanged : qosAfter qos = qos

/-- No alias stands behind one that holds a value; where there are `limits`, all of them are there; and where there are
none, no alias holds a `dict` that is no limit. -/
structure QosFits (qos : Arguments F) : Prop where
  single : ∀ limit ∈ qosLimits, Single (fun value => !value.isBlank) limit.aliases qos
  present : ∀ limits, argument qos "limits" = .dict limits → ∀ limit ∈ qosLimits,
    hasLimit limit.path (.dict limits) = true
  limitLike : (∀ limits, argument qos "limits" ≠ .dict limits) → ∀ limit ∈ qosLimits, ∀ key ∈ limit.aliases, ∀ d,
    Value.lookup qos key = some (.dict d) → isLimit (.dict d) = true

theorem absent_qos_iff (qos : Arguments F) :
    (∀ limit ∈ qosLimits, ∀ key ∈ limit.aliases, Value.lookup (normalizedQos qos) key = none) ↔
      ∀ limit ∈ qosLimits, Single (fun value => !value.isBlank) limit.aliases qos := by
  refine forall₂_congr fun limit hlimit => ?_
  rw [← @absent_pop_iff _ _ _ _ .none _ _ (qosLimits_nodup limit hlimit)]
  exact forall₂_congr fun key hkey => by rw [lookup_normalizedQos_alias qos hlimit hkey]

/-- The first value that is not empty, or the default. -/
theorem given_eq (qos : Arguments F) (limit : Limit) : given (limit, popFirst qos limit.aliases) =
    (limit.aliases.findSome? fun key => (Value.lookup qos key).filter fun value => !value.isBlank).getD
      (.int limit.default) := by
  have hfind : ∀ keys : List Str, (keys.filterMap (Value.lookup qos)).find? (fun value => !value.isBlank) =
      keys.findSome? fun key => (Value.lookup qos key).filter fun value => !value.isBlank := by
    intro keys
    induction keys with
    | nil => rfl
    | cons key keys ih =>
      rw [List.filterMap_cons, List.findSome?_cons]
      cases Value.lookup qos key with
      | none => exact ih
      | some value =>
        dsimp only
        rw [List.find?_cons]
        cases hblank : !value.isBlank with
        | true =>
          have hfilter : (some value).filter (fun value => !value.isBlank) = some value := Option.filter_some_pos hblank
          rw [hfilter]
        | false =>
          have hfilter : (some value).filter (fun value => !value.isBlank) = none :=
            Option.filter_some_neg (by simp [hblank])
          rw [hfilter]
          exact ih
  rw [given, popFirst, ← hfind]
  cases h : (limit.aliases.filterMap (Value.lookup qos)).find? fun value => !value.isBlank with
  | none => rfl
  | some value =>
    have hblank := List.find?_some h
    have hnone : value.isNone = false := by
      cases value with
      | none => cases hblank
      | _ => rfl
    rw [Option.getD_some, Option.getD_some]
    exact if_neg (by simp [hnone])

/-- A limit that is missing gets what is one, unless an alias holds another `dict`. -/
theorem isLimit_given {qos : Arguments F} {limit : Limit} (hlimit : limit ∈ qosLimits)
    (hsingle : Single (fun value => !value.isBlank) limit.aliases qos) :
    isLimit (qosLimit (given (limit, popFirst qos limit.aliases))) = true ↔
      ∀ key ∈ limit.aliases, ∀ d, Value.lookup qos key = some (.dict d) → isLimit (.dict d) = true := by
  rw [isLimit_qosLimit]
  constructor
  · intro h key hkey d hd
    refine h d ?_
    have hfirst : popFirst qos limit.aliases = .dict d := by
      rw [← popFirst_eq qos hlimit, pop_fst (qosLimits_nodup limit hlimit),
        find?_single ((lookup_eq qos key).symm.trans hd) rfl hsingle hkey]
      rfl
    rw [given, hfirst]
    rfl
  · intro h d hd
    rw [given_eq] at hd
    cases hfound : limit.aliases.findSome? fun key => (Value.lookup qos key).filter fun value => !value.isBlank with
    | none =>
      rw [hfound] at hd
      cases hd
    | some value =>
      rw [hfound, Option.getD_some] at hd
      obtain ⟨key, hkey, hlookup⟩ := List.exists_of_findSome?_eq_some hfound
      exact h key hkey d ((Option.filter_eq_some_iff.1 hlookup).1.trans (congrArg some hd))

/-- All limits are there. -/
def Complete (limits : Arguments F) : Prop := ∀ limit ∈ qosLimits, hasLimit limit.path (.dict limits) = true

/-- Without aliases a second normalisation fills in defaults. -/
theorem stable_qos_iff {qos : Arguments F}
    (habsent : ∀ limit ∈ qosLimits, ∀ key ∈ limit.aliases, Value.lookup (normalizedQos qos) key = none) :
    normalizedQos (normalizedQos qos) = normalizedQos qos ↔ Complete (complete (qosEntries qos) (limitsOf qos)) := by
  have hlimits : limitsOf (normalizedQos qos) = complete (qosEntries qos) (limitsOf qos) := by
    rw [limitsOf, argument, lookup_normalizedQos_limits]
    rfl
  have hrest : qosRest (normalizedQos qos) = normalizedQos qos := by
    rw [qosRest, popAll_of_absent]
    intro keys hkeys key hkey
    obtain ⟨limit, hlimit, rfl⟩ := List.mem_map.1 hkeys
    rw [← lookup_eq]
    exact habsent limit hlimit key hkey
  have hnone : ∀ limit ∈ qosLimits, popFirst (normalizedQos qos) limit.aliases = .none := by
    intro limit hlimit
    rw [popFirst, List.filterMap_eq_nil_iff.2 fun key hkey => habsent limit hlimit key hkey]
    rfl
  have hgiven : ∀ limit ∈ qosLimits,
      isLimit (qosLimit (given (limit, popFirst (normalizedQos qos) limit.aliases))) = true := by
    intro limit hlimit
    rw [hnone limit hlimit]
    rfl
  rw [normalizedQos_eq (normalizedQos qos), hrest, hlimits]
  constructor
  · intro h limit hlimit
    have hsame : complete (qosEntries (normalizedQos qos)) (complete (qosEntries qos) (limitsOf qos)) =
        complete (qosEntries qos) (limitsOf qos) := by
      have hlookup := lookup_put_eq (normalizedQos qos) "limits" "limits"
        (.dict (complete (qosEntries (normalizedQos qos)) (complete (qosEntries qos) (limitsOf qos))))
      rw [h, if_pos rfl, lookup_normalizedQos_limits] at hlookup
      exact (Value.dict.inj (Option.some.inj hlookup)).symm
    have hentry : (limit, popFirst (normalizedQos qos) limit.aliases) ∈ qosEntries (normalizedQos qos) :=
      List.mem_map_of_mem hlimit
    rw [← hsame]
    exact (hasLimit_complete (qosEntries_apart _) hentry).2 (.inr (hgiven limit hlimit))
  · intro h
    rw [complete_of_present]
    · exact put_lookup (lookup_normalizedQos_limits qos)
    · intro entry hentry
      obtain ⟨limit, hlimit, rfl⟩ := List.mem_map.1 hentry
      exact h limit hlimit

theorem qos_iff (qos : Arguments F) : QosLawful qos ↔ QosFits qos := by
  have hcomplete : ∀ limits : Arguments F,
      (∀ limit ∈ qosLimits, Single (fun value => !value.isBlank) limit.aliases qos) →
      (Complete (complete (qosEntries qos) limits) ↔ ∀ limit ∈ qosLimits, hasLimit limit.path (.dict limits) = true ∨
        ∀ key ∈ limit.aliases, ∀ d, Value.lookup qos key = some (.dict d) → isLimit (.dict d) = true) := by
    intro limits hsingle
    refine forall₂_congr fun limit hlimit => ?_
    have hentry : (limit, popFirst qos limit.aliases) ∈ qosEntries qos := List.mem_map_of_mem hlimit
    exact (hasLimit_complete (qosEntries_apart _) hentry).trans
      (or_congr Iff.rfl (isLimit_given hlimit (hsingle limit hlimit)))
  have hdict : ∀ {limits : Arguments F}, argument qos "limits" = .dict limits →
      limitsOf qos = limits := fun h => by rw [limitsOf, h]
  constructor
  · intro h
    have hsingle := (absent_qos_iff qos).1 h.absent
    have hall := (stable_qos_iff h.absent).1 h.stable
    refine ⟨hsingle, fun limits hlimits => ?_, fun hnot limit hlimit => ?_⟩
    · have hsame : complete (qosEntries qos) limits = limits := by
        have hunchanged := h.unchanged
        rw [qosAfter, hlimits] at hunchanged
        dsimp only at hunchanged
        have hlookup := lookup_put_eq qos "limits" "limits" (.dict (normalizeSingleQos qos limits))
        rw [hunchanged, if_pos rfl, lookup_of_argument hlimits (by simp)] at hlookup
        exact (Value.dict.inj (Option.some.inj hlookup)).symm
      rw [hdict hlimits, hsame] at hall
      exact hall
    · have hempty : limitsOf qos = [] := by
        rw [limitsOf]
        split
        next limits hlimits => exact absurd hlimits (hnot limits)
        next => rfl
      have hmissing : ∀ limit ∈ qosLimits, hasLimit limit.path (.dict ([] : Arguments F)) = false := by
        intro limit hlimit
        obtain ⟨key, rest, hcons⟩ := path_cons hlimit
        rw [hcons]
        rfl
      rw [hempty] at hall
      exact ((hcomplete [] hsingle).1 hall limit hlimit).resolve_left (by rw [hmissing limit hlimit]; decide)
  · intro h
    have habsent := (absent_qos_iff qos).2 h.single
    refine ⟨habsent, fun limit hlimit => ?_,
      (stable_qos_iff habsent).2 ((hcomplete _ h.single).2 fun limit hlimit => ?_), ?_⟩
    · have hentry : (limit, popFirst qos limit.aliases) ∈ qosEntries qos := List.mem_map_of_mem hlimit
      have hlimits : limitsOf (normalizedQos qos) = complete (qosEntries qos) (limitsOf qos) := by
        rw [limitsOf, argument, lookup_normalizedQos_limits]
        rfl
      rw [hasLimit_eq, valueAt_limits _ hlimit, valueAt_limits _ hlimit, hlimits, ← given_eq, ← hasLimit_eq]
      exact (valueAt_complete (qosEntries_apart _) (limitsOf qos)).1 _ hentry
    · by_cases hlimits : ∃ limits, argument qos "limits" = .dict limits
      · obtain ⟨limits, hlimits⟩ := hlimits
        rw [hdict hlimits]
        exact .inl (h.present limits hlimits limit hlimit)
      · exact .inr (h.limitLike (fun limits hlimits' => hlimits ⟨limits, hlimits'⟩) limit hlimit)
    · rw [qosAfter]
      split
      next limits hlimits =>
        have hpresent : complete (qosEntries qos) limits = limits := complete_of_present fun entry hentry => by
          obtain ⟨limit, hlimit, rfl⟩ := List.mem_map.1 hentry
          exact h.present limits hlimits limit hlimit
        rw [← complete_qosEntries, hpresent]
        exact put_lookup (lookup_of_argument hlimits (by simp))
      next => rfl

/-- **Normalisation.** A reservation is normalised as it should be exactly where no field has two keys and no list hides
blanks or empty parts; a QOS exactly where no alias stands behind a value, its `limits` are whole or
missing, and no value is a `dict` that is no limit. -/
theorem normalisation_iff [Python F] (payload : Arguments F) :
    (ReservationLawful payload ↔ ReservationFits payload) ∧ (QosLawful payload ↔ QosFits payload) :=
  ⟨reservation_iff payload, qos_iff payload⟩

/-- A reservation of nobody and of alice. -/
def twoUsers : Arguments ℚ := [("users", .str []), ("Users", .str "alice")]

/-- A QOS whose `limits` are empty. -/
def emptyLimits : Arguments ℚ := [("name", .str "normal"), ("limits", .dict []), ("max_jobs_per_user", .int 5)]

/-- The second key of the users stays, unread; the limits are written in the payload that was handed in. -/
theorem second_key_stays_limits_written : ¬ ReservationLawful twoUsers ∧ ¬ QosLawful emptyLimits := by
  constructor
  · intro h
    have habsent := h.lawful.absent (csvField ("users", ["Users"])) List.mem_cons_self "Users" List.mem_cons_self
    have hstays : Dict.lookup (normalizeReservationPayload twoUsers) "Users".toList =
        some (.str "alice".toList) := by rfl
    cases hstays.symm.trans habsent
  · intro h
    have hpresent := ((qos_iff emptyLimits).1 h).present [] rfl
    have hmissing : ∃ limit ∈ qosLimits, hasLimit limit.path (.dict ([] : Arguments ℚ)) = false :=
      ⟨_, List.mem_cons_self, by rfl⟩
    obtain ⟨limit, hlimit, hnot⟩ := hmissing
    exact absurd ((hpresent limit hlimit).symm.trans hnot) (by decide)

end SlurmWeb.Slurmrestd
