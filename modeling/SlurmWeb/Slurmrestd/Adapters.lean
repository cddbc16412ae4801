import SlurmWeb.Lib.Slices
import SlurmWeb.Lib.Strings

/-!
# Adaptation of older API versions (slurmweb/slurmrestd/adapters/__init__.py)

What slurmrestd answers in one API version goes through the adapters up to the newest version in use.

| here | there |
| --- | --- |
| `adapters` | `_ADAPTERS` (:22) |
| `buildAdaptationChain` | `build_adaptation_chain` (:31) |
| `discoverChain`, `adaptedRequest` | `SlurmrestdAdapter.discover`, `._request` (slurmrestd/__init__.py :981, :1001) |
| `Adapter.adapt` | `BaseAdapter.adapt`, a parameter |

The chain follows the configured list, the adapters lead from one version to the next: with a version left out of
the list, its adapter is left out of the chain.

* `chain_eq` — the chain, along any list of versions.
* `chain_append` — two chains one after the other.
* `chain_complete_iff` — when no adapter is skipped.
* `gap_skips_adapters` — from 0.0.41 to 0.0.44, 0.0.42 and 0.0.43 skipped.
-/

namespace SlurmWeb.Slurmrestd

open Strings Slices

/-! ## Versions -/

/-- The numbers of a version, compared in order. -/
def release (version : Str) : List Nat :=
  (version.splitOn '.').map fun number => number.foldl (fun n c => 10 * n + (c.toNat - 48)) 0

/-- Newest first, as `versions` is documented (conf/vendor/agent.yml :165). -/
def Descending (versions : List Str) : Prop := versions.Pairwise fun v w => release w < release v

instance (versions : List Str) : Decidable (Descending versions) := inferInstanceAs (Decidable (List.Pairwise _ _))

/-! ## Adapters -/

inductive AdapterClass where
  | v0_0_39 | v0_0_40 | v0_0_41 | v0_0_42 | v0_0_43
  deriving DecidableEq

structure Adapter where
  adapterClass : AdapterClass
  clusterNameHint : Option Str
  deriving DecidableEq

/-- `_ADAPTERS` (:22) -/
def adapters : List (Str × AdapterClass) :=
  [("0.0.39", .v0_0_39), ("0.0.40", .v0_0_40), ("0.0.41", .v0_0_41), ("0.0.42", .v0_0_42), ("0.0.43", .v0_0_43)]

/-- `_ADAPTERS.get(version)` and the instance made of it -/
def adapterOf (hint : Option Str) (version : Str) : Option Adapter := (adapters.lookup version).map (⟨·, hint⟩)

/-- `build_adaptation_chain` (:31); `index` raises `ValueError` for a version that is not listed. -/
def buildAdaptationChain (fromVersion toVersion : Str) (supportedVersions : List Str)
    (hint : Option Str) : List Adapter :=
  let versionChain := supportedVersions.reverse
  match versionChain.idxOf? fromVersion, versionChain.idxOf? toVersion with
  | some fromIdx, some toIdx =>
    if fromIdx ≥ toIdx then []
    else (List.range' fromIdx (toIdx - fromIdx)).filterMap fun i => versionChain[i]?.bind (adapterOf hint)
  | _, _ => []

/-- The chain of `SlurmrestdAdapter.discover` (:986-998), `none` where `supported_versions[0]` raises. -/
def discoverChain (apiVersion : Str) (supportedVersions : List Str) (hint : Option Str) : Option (List Adapter) :=
  supportedVersions.head?.map fun targetVersion =>
    if apiVersion ≠ targetVersion then buildAdaptationChain apiVersion targetVersion supportedVersions hint else []

/-! ## The chain -/

theorem ascending_reverse {versions : List Str} (h : Descending versions) : Ascending release versions.reverse :=
  List.pairwise_reverse.2 h

theorem ascending_adapters : Ascending (fun e : Str × AdapterClass => release e.1) adapters := by
  rw [Ascending]
  decide

theorem chain_eq {versions : List Str} (h : Descending versions) (hint : Option Str) {a b : Str} (ha : a ∈ versions)
    (hb : b ∈ versions) : buildAdaptationChain a b versions hint =
      (between release (release a) (release b) versions.reverse).filterMap (adapterOf hint) := by
  rw [← slice_eq_between (ascending_reverse h) (List.mem_reverse.2 ha) (List.mem_reverse.2 hb)]
  simp only [buildAdaptationChain, idxOf?_eq_some_idxOf (List.mem_reverse.2 ha),
    idxOf?_eq_some_idxOf (List.mem_reverse.2 hb)]
  split_ifs with hle
  · rw [Nat.sub_eq_zero_of_le hle, List.take_zero, List.filterMap_nil]
  · have hlen := List.idxOf_lt_length_of_mem (List.mem_reverse.2 hb)
    exact filterMap_range' (adapterOf hint) _ _ (by omega)

theorem chain_append {versions : List Str} (h : Descending versions) (hint : Option Str) {a b c : Str}
    (ha : a ∈ versions) (hb : b ∈ versions) (hc : c ∈ versions) (hab : release a ≤ release b)
    (hbc : release b ≤ release c) : buildAdaptationChain a c versions hint =
      buildAdaptationChain a b versions hint ++ buildAdaptationChain b c versions hint := by
  rw [chain_eq h hint ha hc, chain_eq h hint ha hb, chain_eq h hint hb hc,
    between_append (ascending_reverse h) hab hbc, List.filterMap_append]

/-- The registered adapters from one version up to, not including, another. -/
def registered (hint : Option Str) (a b : Str) : List Adapter :=
  (between (fun e : Str × AdapterClass => release e.1) (release a) (release b) adapters).map (⟨·.2, hint⟩)

theorem chain_registered {versions : List Str} (h : Descending versions) (hint : Option Str) {a b : Str}
    (ha : a ∈ versions) (hb : b ∈ versions) : buildAdaptationChain a b versions hint =
      ((between (fun e : Str × AdapterClass => release e.1) (release a) (release b) adapters).filter
        fun e => e.1 ∈ versions).map (⟨·.2, hint⟩) := by
  have hmeet := filterMap_lookup ascending_adapters ((ascending_reverse h).between (release a) (release b))
  have hadapter : adapterOf hint = fun v => ((adapters.lookup v).map (v, ·)).map fun e => (⟨e.2, hint⟩ : Adapter) := by
    funext v
    simp [adapterOf, Option.map_map, Function.comp_def]
  rw [chain_eq h hint ha hb, hadapter, ← List.map_filterMap, hmeet]
  simp only [between, List.filter_filter]
  refine congrArg _ (List.filter_congr fun e _ => Bool.eq_iff_iff.2 ?_)
  simp

/-- The chain of `discover` is the one to the first version listed. -/
theorem discoverChain_eq {versions : List Str} (h : Descending versions) (hint : Option Str) {api target : Str}
    (hapi : api ∈ versions) (htarget : target ∈ versions.head?) :
    discoverChain api versions hint = some (buildAdaptationChain api target versions hint) := by
  rw [discoverChain, Option.mem_def.1 htarget, Option.map_some]
  split_ifs with hne
  · rfl
  · rw [not_not] at hne
    subst hne
    rw [chain_eq h hint hapi hapi, between_eq_nil le_rfl, List.filterMap_nil]

/-! ## Gaps -/

/-- Every registered adapter from the version to the first one listed, and chains that compose. -/
def ChainsComplete (versions : List Str) (hint : Option Str) (api : Str) : Prop :=
  (∀ target ∈ versions.head?, buildAdaptationChain api target versions hint = registered hint api target) ∧
    ∀ a ∈ versions, ∀ b ∈ versions, ∀ c ∈ versions, release a ≤ release b → release b ≤ release c →
      buildAdaptationChain a c versions hint = buildAdaptationChain a b versions hint ++
        buildAdaptationChain b c versions hint

/-- Every registered version from `api` to the first one listed is listed. -/
def NoGap (versions : List Str) (api : Str) : Prop :=
  ∀ target ∈ versions.head?, ∀ e ∈ adapters, release api ≤ release e.1 → release e.1 < release target → e.1 ∈ versions

instance (versions : List Str) (api : Str) : Decidable (NoGap versions api) := by
  unfold NoGap
  infer_instance

theorem registered_iff {versions : List Str} (h : Descending versions) (hint : Option Str) {a b : Str}
    (ha : a ∈ versions) (hb : b ∈ versions) : buildAdaptationChain a b versions hint = registered hint a b ↔
      ∀ e ∈ adapters, release a ≤ release e.1 → release e.1 < release b → e.1 ∈ versions := by
  rw [chain_registered h hint ha hb, registered]
  constructor
  · intro heq e he hae heb
    -- a filter that drops nothing keeps the length
    have hlen := congrArg List.length heq
    rw [List.length_map, List.length_map] at hlen
    have hall := List.filter_eq_self.1 (List.filter_sublist.eq_of_length hlen)
    exact of_decide_eq_true (hall e (mem_between.2 ⟨he, hae, heb⟩))
  · intro hall
    rw [List.filter_eq_self.2 fun e he => ?_]
    obtain ⟨he, hae, heb⟩ := mem_between.1 he
    exact decide_eq_true (hall e he hae heb)

/-- **The chain reaches the first listed version** exactly when the list has no gap over the registry; put
together, two chains are always the one from end to end. -/
theorem chain_complete_iff {versions : List Str} (h : Descending versions) (hint : Option Str) {api : Str}
    (hapi : api ∈ versions) : ChainsComplete versions hint api ↔ NoGap versions api := by
  constructor
  · rintro ⟨hcomplete, -⟩ target htarget
    exact (registered_iff h hint hapi (List.mem_of_mem_head? htarget)).1 (hcomplete target htarget)
  · intro hgap
    refine ⟨fun target htarget => ?_, fun a ha b hb c hc hab hbc => chain_append h hint ha hb hc hab hbc⟩
    exact (registered_iff h hint hapi (List.mem_of_mem_head? htarget)).2 (hgap target htarget)

/-- The default list, from its oldest version. -/
theorem chain_complete_iff_default :
    ChainsComplete ["0.0.44", "0.0.43", "0.0.42", "0.0.41", "0.0.40", "0.0.39"] none "0.0.39" :=
  (chain_complete_iff (by decide) none (by decide)).2 (by decide)

theorem gap_skips_adapters : ¬ ∀ versions : List Str, Descending versions → ∀ api ∈ versions, ∀ hint : Option Str,
    ChainsComplete versions hint api := by
  intro hall
  have h := (hall ["0.0.44", "0.0.41"] (by decide) "0.0.41" (by decide) none).1
    "0.0.44" (by decide)
  revert h
  decide

/-! ## Answers -/

section
variable {Data : Type} {E : Type} (adapt : Adapter → Str → Option Str → Data → Except E Data)

/-- `SlurmrestdAdapter._request` (:1001) on what the request returned. -/
def adaptedRequest (chain : List Adapter) (component : Str) (key : Option Str)
    (result : Except E Data) : Except E Data := do
  let data ← result
  chain.foldlM (fun data adapter => adapt adapter component key data) data

/-- From one version to a second and on to a third is from the first to the third. -/
theorem adaptedRequest_append {versions : List Str} (h : Descending versions) (hint : Option Str) {a b c : Str}
    (ha : a ∈ versions) (hb : b ∈ versions) (hc : c ∈ versions) (hab : release a ≤ release b)
    (hbc : release b ≤ release c) (component : Str) (key : Option Str) (result : Except E Data) :
    adaptedRequest adapt (buildAdaptationChain a c versions hint) component key result =
      adaptedRequest adapt (buildAdaptationChain b c versions hint) component key
        (adaptedRequest adapt (buildAdaptationChain a b versions hint) component key result) := by
  rw [chain_append h hint ha hb hc hab hbc]
  cases result with
  | error e => rfl
  | ok data => exact List.foldlM_append ..

end

end SlurmWeb.Slurmrestd
