import SlurmWeb.Permission.Rules

/-!
# Legacy actions and the rules they stand for (slurmweb/permission_rules.py:169-319)

A policy file grants named actions; the permission map says which rules each action stands for.
Rules are turned back into actions for the code that still asks for an action, and a role is
stored with both.

* `legacyActionsToRules_ok` — on a valid map the actions expand to the rules of all of them.
* `permissionRulesToLegacyActions_ok` — an action is derived as soon as *one* of its rules is
  covered.
* `mergedLegacyPermissionMap_normal` — what the loader returns is a `LegacyMap`.
-/

namespace SlurmWeb

open Strings

/-- `DEFAULT_LEGACY_PERMISSION_MAP` (:169) -/
def DEFAULT_LEGACY_PERMISSION_MAP : Dict Str (List Str) := Dict.ofList [
  ("view-stats", ["dashboard:view:*", "analysis:view:*"]),
  ("view-ai", ["ai:view:*"]),
  ("view-jobs", ["jobs:view:*"]),
  ("view-history-jobs", ["jobs-history:view:*"]),
  ("view-nodes", ["resources:view:*"]),
  ("view-qos", ["qos:view:*", "jobs/filter-qos:view:*"]),
  ("view-reservations", ["reservations:view:*"]),
  ("associations-view", ["accounts:view:*", "user/profile:view:*"]),
  ("view-accounts", ["jobs/filter-accounts:view:*"]),
  ("view-partitions", ["jobs/filter-partitions:view:*", "resources/filter-partitions:view:*"]),
  ("cache-view", ["admin/cache:view:*", "admin/ldap-users:view:*"]),
  ("cache-reset", ["admin/cache:edit:*"]),
  ("admin-manage", ["*:*:*"])]

/-- The dict comprehension of `merged_legacy_permission_map` (:281) and the loop of
`load_legacy_permission_map` (:273): every entry's rules are sorted. -/
def sortEntries : List (Str × List Str) → Except RuleError (List (Str × List Str))
  | [] => return []
  | (action, rules) :: entries => do
    let rules ← sortPermissionRules rules
    let entries ← sortEntries entries
    return (action, rules) :: entries

/-- `merged_legacy_permission_map` (:280); `custom` is the mapping the YAML file holds. -/
def mergedLegacyPermissionMap (custom : List (Str × List Str)) : Except RuleError (Dict Str (List Str)) := do
  let merged ← sortEntries DEFAULT_LEGACY_PERMISSION_MAP.entries
  let loaded ← sortEntries custom
  return (Dict.ofList merged).update loaded

/-- The `rules.extend(legacy_map.get(action, []))` loop. -/
def mappedRules (actions : List Str) (legacyMap : Dict Str (List Str)) : List Str :=
  actions.flatMap fun action => (legacyMap.get action).getD []

/-- `legacy_actions_to_rules` (:291) -/
def legacyActionsToRules (actions : List Str) (legacyMap : Dict Str (List Str)) : Except RuleError (List Str) :=
  sortPermissionRules (mappedRules actions legacyMap)

/-- The `any(..)` of `permission_rules_to_legacy_actions` (:309). -/
def anyCovered (rules : List Str) : List Str → Except RuleError Bool
  | [] => return false
  | requiredRule :: requiredRules => do
    let required ← normalizePermissionRule requiredRule
    if ← permissionRulesAllow rules required.resource required.operation.text required.scope.text then return true
    else anyCovered rules requiredRules

/-- The loop over `legacy_map.items()` (:308). -/
def coveredActions (rules : List Str) : List (Str × List Str) → Except RuleError (List Str)
  | [] => return []
  | (action, requiredRules) :: entries => do
    let covered ← anyCovered rules requiredRules
    let actions ← coveredActions rules entries
    return if covered then action :: actions else actions

/-- `permission_rules_to_legacy_actions` (:302) -/
def permissionRulesToLegacyActions (rules : List Str) (legacyMap : Dict Str (List Str)) :
    Except RuleError (List Str) := do
  let normalizedRules ← sortPermissionRules rules
  let actions ← coveredActions normalizedRules legacyMap.entries
  return sorted actions

/-! ## Maps of valid rules -/

/-- A permission map all of whose rules parse. -/
structure LegacyMap where
  rules : Dict Str (List Str)
  valid : ∀ action rs, rules.get action = some rs → AllRules rs

/-- The rules an action stands for. -/
def LegacyMap.bundle (M : LegacyMap) (action : Str) : Set PermissionRule :=
  ruleSet ((M.rules.get action).getD [])

theorem LegacyMap.getD_valid (M : LegacyMap) (action : Str) : AllRules ((M.rules.get action).getD []) := by
  cases h : M.rules.get action with
  | none => simp [AllRules]
  | some rs => exact M.valid action rs h

theorem ruleSet_flatMap {A : Type} (l : List A) (f : A → List Str) :
    ruleSet (l.flatMap f) = {r | ∃ a ∈ l, r ∈ ruleSet (f a)} := by
  ext r
  simp only [ruleSet, List.mem_flatMap, Set.mem_ofPred_eq]
  constructor
  · rintro ⟨s, ⟨a, ha, hs⟩, hr⟩; exact ⟨a, ha, s, hs, hr⟩
  · rintro ⟨a, ha, s, hs, hr⟩; exact ⟨s, ⟨a, ha, hs⟩, hr⟩

theorem LegacyMap.mappedRules_valid (M : LegacyMap) (actions : List Str) : AllRules (mappedRules actions M.rules) := by
  intro s hs
  obtain ⟨a, -, h⟩ := List.mem_flatMap.1 hs
  exact M.getD_valid a s h

/-- `legacy_actions_to_rules` on a valid map: the normal rules of all the actions. -/
theorem legacyActionsToRules_ok (actions : List Str) (M : LegacyMap) :
    ∃ out, legacyActionsToRules actions M.rules = .ok out ∧ (∀ s ∈ out, IsNormalRule s) ∧
      ruleSet out = RuleLanguage.expand M.bundle {a | a ∈ actions} := by
  obtain ⟨out, hout, hn, hr⟩ := sortPermissionRules_ok (M.mappedRules_valid actions)
  refine ⟨out, hout, hn, ?_⟩
  rw [hr, mappedRules, ruleSet_flatMap]
  rfl

/-- What rules grant, read through `ruleSet`. -/
theorem permissionRulesAllow_grants {rules : List Str} (h : AllRules rules) (resource operation scope : Str) :
    ∃ b, permissionRulesAllow rules resource operation scope = .ok b ∧
      (b = true ↔ permissionLanguage.Grants (ruleSet rules) ⟨resource, operation, scope⟩) :=
  permissionRulesAllow_ok resource operation scope rules h

theorem anyCovered_ok {rules : List Str} (h : AllRules rules) :
    ∀ required : List Str, AllRules required → ∃ b, anyCovered rules required = .ok b ∧
      (b = true ↔ ∃ r ∈ ruleSet required, permissionLanguage.Grants (ruleSet rules) (permissionLanguage.ask r))
  | [], _ => ⟨false, rfl, by simp [ruleSet]⟩
  | rule :: required, hreq => by
    obtain ⟨r, hr⟩ := hreq rule (by simp)
    obtain ⟨b, hb, hiff⟩ := anyCovered_ok h required fun s hs => hreq s (by simp [hs])
    obtain ⟨c, hc, hciff⟩ := permissionRulesAllow_grants h r.resource r.operation.text r.scope.text
    have hset := mem_ruleSet_cons hr required
    cases c with
    | true =>
      refine ⟨true, by simp [anyCovered, hr, hc], ?_⟩
      exact ⟨fun _ => ⟨r, (hset r).2 (.inl rfl), hciff.1 rfl⟩, fun _ => rfl⟩
    | false =>
      refine ⟨b, by simp [anyCovered, hr, hc, hb], ?_⟩
      have hno : ¬ permissionLanguage.Grants (ruleSet rules) (permissionLanguage.ask r) :=
        fun hg => absurd (hciff.2 hg) (by decide)
      simp only [hiff, hset, or_and_right, exists_or, exists_eq_left, hno, false_or]

theorem coveredActions_ok {rules : List Str} (h : AllRules rules) :
    ∀ entries : List (Str × List Str), (∀ e ∈ entries, AllRules e.2) →
      ∃ out, coveredActions rules entries = .ok out ∧ ∀ a, a ∈ out ↔ ∃ rs, (a, rs) ∈ entries ∧
        ∃ r ∈ ruleSet rs, permissionLanguage.Grants (ruleSet rules) (permissionLanguage.ask r)
  | [], _ => ⟨[], rfl, by simp⟩
  | (action, required) :: entries, hent => by
    obtain ⟨b, hb, hiff⟩ := anyCovered_ok h required (hent (action, required) (by simp))
    obtain ⟨out, hout, hmem⟩ := coveredActions_ok h entries fun e he => hent e (by simp [he])
    refine ⟨if b then action :: out else out,
      by simp [coveredActions, hb, hout], fun a => ?_⟩
    simp only [List.mem_cons, Prod.mk.injEq, or_and_right, exists_or, and_assoc, ← hmem a]
    cases b with
    | true =>
      have := hiff.1 rfl
      simp only [if_true, List.mem_cons, exists_and_left, exists_eq_left, this, and_true]
    | false =>
      have : ¬ _ := fun hg => absurd (hiff.2 hg) (by decide)
      simp only [Bool.false_eq_true, if_false, exists_and_left, exists_eq_left, this, and_false, false_or]

/-- **An action is derived as soon as one of its rules is covered.** -/
theorem permissionRulesToLegacyActions_ok {rules : List Str} (h : AllRules rules) (M : LegacyMap) :
    ∃ out, permissionRulesToLegacyActions rules M.rules = .ok out ∧
      ∀ a, a ∈ out ↔ a ∈ permissionLanguage.Derived M.bundle (ruleSet rules) := by
  obtain ⟨normal, hn, hnormal, hset⟩ := sortPermissionRules_ok h
  obtain ⟨out, hout, hmem⟩ := coveredActions_ok (AllRules.of_normal hnormal) M.rules.entries
    fun e he => M.valid e.1 e.2 (Dict.mem_entries_iff.1 he)
  refine ⟨sorted out, by simp [permissionRulesToLegacyActions, hn, hout], ?_⟩
  intro a
  rw [mem_sorted, hmem a, hset]
  simp only [Dict.mem_entries_iff, RuleLanguage.Derived, LegacyMap.bundle, Set.mem_ofPred_eq]
  cases ha : M.rules.get a with
  | none => simp [ruleSet]
  | some rs => simp

/-- A search of `legacy_map.items()` for an action that covers a request. -/
theorem LegacyMap.exists_entry_iff {M : LegacyMap} {q : Request} {p : Str → Prop} :
    (∃ a rs, (a, rs) ∈ M.rules.entries ∧ permissionLanguage.Grants (ruleSet rs) q ∧ p a) ↔
      ∃ a, p a ∧ permissionLanguage.Grants (M.bundle a) q := by
  simp only [Dict.mem_entries_iff, LegacyMap.bundle]
  constructor
  · rintro ⟨a, rs, ha, hg, hp⟩
    exact ⟨a, hp, by simpa [ha] using hg⟩
  · rintro ⟨a, hp, hg⟩
    cases ha : M.rules.get a with
    | none => rw [ha] at hg; obtain ⟨r, ⟨s, hs, -⟩, -⟩ := hg; cases hs
    | some rs => exact ⟨a, rs, ha, by simpa [ha] using hg, hp⟩

/-! ## The loaded map -/

theorem sortPermissionRules_normal {rules out : List Str} (h : sortPermissionRules rules = .ok out) :
    ∀ s ∈ out, IsNormalRule s := by
  obtain ⟨rs, -, hout⟩ := Except.bind_eq_ok.1 h
  intro s hs
  rw [← Except.ok.inj hout, mem_sortedSet, List.mem_map] at hs
  obtain ⟨r, -, rfl⟩ := hs
  exact ⟨r, rfl⟩

theorem sortEntries_normal : ∀ {entries out : List (Str × List Str)}, sortEntries entries = .ok out →
    ∀ e ∈ out, ∀ s ∈ e.2, IsNormalRule s
  | [], out, h => by cases h; simp
  | (action, rules) :: entries, out, h => by
    obtain ⟨rs, hrs, h⟩ := Except.bind_eq_ok.1 h
    obtain ⟨es, hes, h⟩ := Except.bind_eq_ok.1 h
    rw [← Except.ok.inj h]
    intro e hmem
    rcases List.mem_cons.1 hmem with rfl | hmem
    · exact sortPermissionRules_normal hrs
    · exact sortEntries_normal hes e hmem

/-- Whatever the YAML file holds, a loaded map has normal rules only. -/
theorem mergedLegacyPermissionMap_normal {custom : List (Str × List Str)} {m : Dict Str (List Str)}
    (h : mergedLegacyPermissionMap custom = .ok m) {action : Str} {rs : List Str} (ha : m.get action = some rs) :
    ∀ s ∈ rs, IsNormalRule s := by
  obtain ⟨merged, hmerged, h⟩ := Except.bind_eq_ok.1 h
  obtain ⟨loaded, hloaded, h⟩ := Except.bind_eq_ok.1 h
  rw [← Except.ok.inj h] at ha
  rcases Dict.get_update_mem ha with hm | ha
  · exact sortEntries_normal hloaded _ hm
  · rcases Dict.get_update_mem ha with hm | ha
    · exact sortEntries_normal hmerged _ hm
    · cases ha

/-- The map an `AccessControlPolicyManager` loads. -/
def LegacyMap.ofLoaded {custom : List (Str × List Str)} (m : Dict Str (List Str))
    (h : mergedLegacyPermissionMap custom = .ok m) : LegacyMap where
  rules := m
  valid := fun _ _ ha => AllRules.of_normal (mergedLegacyPermissionMap_normal h ha)

/-- The default map as loaded: each entry's rules sorted. -/
def defaultLegacyRules : Dict Str (List Str) := Dict.ofList [
  ("view-stats", ["analysis:view:*", "dashboard:view:*"]),
  ("view-ai", ["ai:view:*"]),
  ("view-jobs", ["jobs:view:*"]),
  ("view-history-jobs", ["jobs-history:view:*"]),
  ("view-nodes", ["resources:view:*"]),
  ("view-qos", ["jobs/filter-qos:view:*", "qos:view:*"]),
  ("view-reservations", ["reservations:view:*"]),
  ("associations-view", ["accounts:view:*", "user/profile:view:*"]),
  ("view-accounts", ["jobs/filter-accounts:view:*"]),
  ("view-partitions", ["jobs/filter-partitions:view:*", "resources/filter-partitions:view:*"]),
  ("cache-view", ["admin/cache:view:*", "admin/ldap-users:view:*"]),
  ("cache-reset", ["admin/cache:edit:*"]),
  ("admin-manage", ["*:*:*"])]

theorem mergedLegacyPermissionMap_nil : mergedLegacyPermissionMap [] = .ok defaultLegacyRules := by decide

/-- The map without a YAML file. -/
def defaultLegacyMap : LegacyMap := .ofLoaded defaultLegacyRules mergedLegacyPermissionMap_nil

/-- The maps of a `LegacyMap` whose rules are normal, as the loader leaves them. -/
def LegacyMap.Normal (M : LegacyMap) : Prop := ∀ action rs, M.rules.get action = some rs → ∀ s ∈ rs, IsNormalRule s

theorem defaultLegacyMap_normal : defaultLegacyMap.Normal :=
  fun _ _ h => mergedLegacyPermissionMap_normal mergedLegacyPermissionMap_nil h

theorem mappedRules_normal {M : LegacyMap} (h : M.Normal) (actions : List Str) :
    ∀ s ∈ mappedRules actions M.rules, IsNormalRule s := by
  intro s hs
  obtain ⟨a, -, hs⟩ := List.mem_flatMap.1 hs
  cases ha : M.rules.get a with
  | none => rw [ha] at hs; cases hs
  | some rs => rw [ha] at hs; exact h a rs ha s hs

end SlurmWeb
