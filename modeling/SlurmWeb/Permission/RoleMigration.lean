import SlurmWeb.Permission.LegacyMap

/-!
# The migration of legacy role actions (slurmweb/persistence/access_control_store.py)

At startup the actions that are no longer offered are taken out of every role, and the rules of two
of the others are written into its permissions. A role whose permissions are empty is reported with
the rules of its actions; once two actions have filled them, those of the others are not reported any more.

| here | there |
| --- | --- |
| `derivePermissions` | `_derive_permissions` (:30) |
| `normalizedRoleActionsPermissions` | `_normalized_role_actions_permissions` (:64) |
| `normalizeLegacyRoleActions` | `normalize_legacy_role_actions` (:74) |
| `reportedPermissions` | the permissions of `list_roles` (:120) |
| `effectiveRules` | `user_permissions` (:286) and `custom_roles_actions_rules` (access_control.py:74) |

* `normalize_again` — a second run updates no row.
* `effective_kept` — the rules of a user stay, but for those of removed actions.
* `migration_keeps_iff` — what is reported stays exactly where the filled permissions cover the other
  actions.
-/

namespace SlurmWeb

open Strings RuleLanguage

/-- `REMOVED_ROLE_ACTIONS` (:13) -/
def REMOVED_ROLE_ACTIONS : List Str :=
  ["view-own-jobs", "edit-own-jobs", "cancel-own-jobs", "roles-view", "roles-manage", "manage-ai"]

namespace RoleMigration

/-- A row of `roles` as it is stored; a `NULL` column is an empty list. -/
structure RoleRow where
  id : Int
  name : Str
  actions : List Str
  permissions : List Str

variable (legacyPermissionMap : Dict Str (List Str))

/-- `_derive_permissions` (:30) -/
def derivePermissions (actions permissions : List Str) : List Str :=
  if permissions ≠ [] then permissions else sortedSet (mappedRules actions legacyPermissionMap)

def isKept (action : Str) : Bool := decide (action ∉ REMOVED_ROLE_ACTIONS)

/-- The actions whose rules are written into the permissions. -/
def isFilled (action : Str) : Bool := decide (action = "admin-manage".toList ∨ action = "view-ai".toList)

/-- `_normalized_role_actions_permissions` (:64) -/
def normalizedRoleActionsPermissions (actions permissions : List Str) : List Str × List Str :=
  (sortedSet (actions.filter isKept),
    sortedSet (permissions ++ mappedRules (actions.filter isFilled) legacyPermissionMap))

/-- One row of the loop (:83), and whether it is updated. -/
def normalizeRow (row : RoleRow) : RoleRow × Bool :=
  let (actions, permissions) := normalizedRoleActionsPermissions legacyPermissionMap row.actions row.permissions
  if row.actions = actions ∧ row.permissions = permissions then (row, false)
  else ({ row with actions, permissions }, true)

/-- `normalize_legacy_role_actions` (:74): the table after it, and what it returns. -/
def normalizeLegacyRoleActions (rows : List RoleRow) : List RoleRow × Nat :=
  (rows.map fun row => (normalizeRow legacyPermissionMap row).1,
    rows.countP fun row => (normalizeRow legacyPermissionMap row).2)

/-- What `list_roles` (:120) reports as the permissions of a row. -/
def reportedPermissions (row : RoleRow) : List Str := derivePermissions legacyPermissionMap row.actions row.permissions

/-- The rules of a user with the roles that `held` names. -/
def effectiveRules (rows : List RoleRow) (held : Int → Bool) : Except RuleError (List Str) := do
  let rows := rows.filter fun row => held row.id
  let rules ← legacyActionsToRules (rows.flatMap RoleRow.actions) legacyPermissionMap
  return rules ++ rows.flatMap (reportedPermissions legacyPermissionMap)

/-- Some rule of the list allows the request. -/
def RulesAllow (rules : List Str) (resource operation scope : Str) : Prop :=
  ∃ rule ∈ rules, permissionRuleAllows rule resource operation scope = .ok true

variable {legacyPermissionMap}

/-! ## One row -/

@[simp] theorem normalizeRow_id (row : RoleRow) : (normalizeRow legacyPermissionMap row).1.id = row.id := by
  simp only [normalizeRow]
  split <;> rfl

/-- A row after the loop has the normalized columns, updated or not. -/
theorem normalizeRow_columns (row : RoleRow) :
    ((normalizeRow legacyPermissionMap row).1.actions, (normalizeRow legacyPermissionMap row).1.permissions) =
      normalizedRoleActionsPermissions legacyPermissionMap row.actions row.permissions := by
  simp only [normalizeRow]
  split
  next h => exact Prod.ext h.1 h.2
  next => rfl

@[simp] theorem normalizeRow_actions (row : RoleRow) :
    (normalizeRow legacyPermissionMap row).1.actions = sortedSet (row.actions.filter isKept) :=
  congrArg Prod.fst (normalizeRow_columns row)

@[simp] theorem normalizeRow_permissions (row : RoleRow) :
    (normalizeRow legacyPermissionMap row).1.permissions =
      sortedSet (row.permissions ++ mappedRules (row.actions.filter isFilled) legacyPermissionMap) :=
  congrArg Prod.snd (normalizeRow_columns row)

theorem isKept_of_isFilled {action : Str} (h : isFilled action = true) : isKept action = true := by
  rcases of_decide_eq_true h with rfl | rfl <;> decide

theorem mem_mappedRules {actions : List Str} {s : Str} :
    s ∈ mappedRules actions legacyPermissionMap ↔
      ∃ a ∈ actions, s ∈ (legacyPermissionMap.get a).getD [] := List.mem_flatMap

/-- A row after the loop is left alone by the next. -/
theorem normalizeRow_again (row : RoleRow) :
    (normalizeRow legacyPermissionMap (normalizeRow legacyPermissionMap row).1).2 = false := by
  have hactions : sortedSet ((sortedSet (row.actions.filter isKept)).filter isKept) =
      sortedSet (row.actions.filter isKept) := by
    apply sortedSet_congr
    intro a
    simp
  have hfilled : ∀ a, a ∈ (sortedSet (row.actions.filter isKept)).filter isFilled ↔
      a ∈ row.actions.filter isFilled := by
    intro a
    simp only [List.mem_filter, mem_sortedSet]
    exact ⟨fun h => ⟨h.1.1, h.2⟩, fun h => ⟨⟨h.1, isKept_of_isFilled h.2⟩, h.2⟩⟩
  have hpermissions : sortedSet (sortedSet
      (row.permissions ++ mappedRules (row.actions.filter isFilled) legacyPermissionMap) ++
      mappedRules ((sortedSet (row.actions.filter isKept)).filter isFilled) legacyPermissionMap) =
        sortedSet (row.permissions ++ mappedRules (row.actions.filter isFilled) legacyPermissionMap) := by
    apply sortedSet_congr
    intro s
    simp only [List.mem_append, mem_sortedSet, mem_mappedRules, hfilled]
    tauto
  generalize hrow : (normalizeRow legacyPermissionMap row).1 = row'
  have hactions' : row'.actions = sortedSet (row.actions.filter isKept) := by rw [← hrow, normalizeRow_actions]
  have hpermissions' : row'.permissions =
      sortedSet (row.permissions ++ mappedRules (row.actions.filter isFilled) legacyPermissionMap) := by
    rw [← hrow, normalizeRow_permissions]
  simp only [normalizeRow, normalizedRoleActionsPermissions, hactions', hpermissions', hactions,
    hpermissions, and_self, if_true]

/-- A second run updates no row. -/
theorem normalize_again (rows : List RoleRow) :
    (normalizeLegacyRoleActions legacyPermissionMap (normalizeLegacyRoleActions legacyPermissionMap rows).1).2 = 0 := by
  rw [normalizeLegacyRoleActions, normalizeLegacyRoleActions, List.countP_eq_zero]
  intro row hrow
  obtain ⟨row, -, rfl⟩ := List.mem_map.1 hrow
  simp [normalizeRow_again]

/-! ## Effective rules -/

/-- Every rule of the map is as a loader leaves it. -/
def NormalMap (legacyPermissionMap : Dict Str (List Str)) : Prop :=
  ∀ action rules, legacyPermissionMap.get action = some rules → ∀ s ∈ rules, IsNormalRule s

theorem NormalMap.of_loaded {custom : List (Str × List Str)}
    (h : mergedLegacyPermissionMap custom = .ok legacyPermissionMap) :
    NormalMap legacyPermissionMap := fun _ _ ha => mergedLegacyPermissionMap_normal h ha

theorem NormalMap.mappedRules (h : NormalMap legacyPermissionMap) {actions : List Str} :
    ∀ s ∈ SlurmWeb.mappedRules actions legacyPermissionMap, IsNormalRule s := by
  intro s hs
  obtain ⟨a, -, hs⟩ := mem_mappedRules.1 hs
  cases ha : legacyPermissionMap.get a with
  | none => simp [ha] at hs
  | some rules =>
    rw [ha] at hs
    exact h a rules ha s hs

/-- Normal strings are the rules they stand for. -/
theorem subset_of_ruleSet_subset {a b : List Str} (ha : ∀ s ∈ a, IsNormalRule s) (hb : ∀ s ∈ b, IsNormalRule s)
    (h : ruleSet a ⊆ ruleSet b) : a ⊆ b := by
  intro s hs
  obtain ⟨r, rfl⟩ := ha s hs
  obtain ⟨s', hs', hr⟩ := h ⟨r.text, hs, normalize_text r⟩
  obtain ⟨r', rfl⟩ := hb s' hs'
  rw [normalize_text] at hr
  cases hr
  exact hs'

theorem legacyActionsToRules_strings (h : NormalMap legacyPermissionMap) (actions : List Str) :
    ∃ out, legacyActionsToRules actions legacyPermissionMap = .ok out ∧ ∀ s, s ∈ out ↔
      s ∈ mappedRules actions legacyPermissionMap := by
  obtain ⟨out, hout, hnormal, hset⟩ := sortPermissionRules_ok (AllRules.of_normal h.mappedRules)
  refine ⟨out, hout, fun s => ⟨fun hs => ?_, fun hs => ?_⟩⟩
  · exact subset_of_ruleSet_subset hnormal h.mappedRules hset.subset hs
  · exact subset_of_ruleSet_subset h.mappedRules hnormal hset.symm.subset hs

/-- The rule is in the permissions of the row, or is one of an action of it. -/
def Contributes (legacyPermissionMap : Dict Str (List Str)) (row : RoleRow) (s : Str) : Prop :=
  s ∈ row.permissions ∨ s ∈ mappedRules row.actions legacyPermissionMap

theorem mem_derivePermissions {actions permissions : List Str} {s : Str} :
    s ∈ derivePermissions legacyPermissionMap actions permissions ↔
      s ∈ permissions ∨ permissions = [] ∧ s ∈ mappedRules actions legacyPermissionMap := by
  unfold derivePermissions
  by_cases h : permissions = []
  · simp [h]
  · simp [h]

theorem effectiveRules_ok (h : NormalMap legacyPermissionMap) (rows : List RoleRow) (held : Int → Bool) :
    ∃ rules, effectiveRules legacyPermissionMap rows held = .ok rules ∧
      ∀ s, s ∈ rules ↔ ∃ row ∈ rows, held row.id = true ∧ Contributes legacyPermissionMap row s := by
  obtain ⟨out, hout, hmem⟩ := legacyActionsToRules_strings h
    ((rows.filter fun row => held row.id).flatMap RoleRow.actions)
  have heffective : effectiveRules legacyPermissionMap rows held = .ok (out ++
      (rows.filter fun row => held row.id).flatMap (reportedPermissions legacyPermissionMap)) := by
    simp only [effectiveRules, hout, Except.ok_bind, Except.pure_eq_ok]
  refine ⟨_, heffective, fun s => ?_⟩
  simp only [List.mem_append, hmem, mem_mappedRules, List.mem_flatMap, List.mem_filter, Contributes]
  constructor
  · rintro (⟨a, ⟨row, ⟨hrow, hheld⟩, ha⟩, hs⟩ | ⟨row, ⟨hrow, hheld⟩, hs⟩)
    · exact ⟨row, hrow, hheld, .inr ⟨a, ha, hs⟩⟩
    · rcases mem_derivePermissions.1 hs with hs | ⟨-, hs⟩
      · exact ⟨row, hrow, hheld, .inl hs⟩
      · exact ⟨row, hrow, hheld, .inr (mem_mappedRules.1 hs)⟩
  · rintro ⟨row, hrow, hheld, hs | ⟨a, ha, hs⟩⟩
    · exact .inr ⟨row, ⟨hrow, hheld⟩, mem_derivePermissions.2 (.inl hs)⟩
    · exact .inl ⟨a, ⟨row, ⟨hrow, hheld⟩, ha⟩, hs⟩

theorem contributes_normalizeRow {row : RoleRow} {s : Str} :
    Contributes legacyPermissionMap (normalizeRow legacyPermissionMap row).1 s ↔
      s ∈ row.permissions ∨ s ∈ mappedRules (row.actions.filter isKept) legacyPermissionMap := by
  simp only [Contributes, normalizeRow_actions, normalizeRow_permissions, mem_sortedSet,
    List.mem_append, mem_mappedRules, List.mem_filter]
  constructor
  · rintro ((hs | ⟨a, ha, hs⟩) | hs)
    · exact .inl hs
    · exact .inr ⟨a, ⟨ha.1, isKept_of_isFilled ha.2⟩, hs⟩
    · exact .inr hs
  · rintro (hs | hs)
    · exact .inl (.inl hs)
    · exact .inr hs

/-- The effective rules of a user before and after the migration, where `before` and `after` are what
`effectiveRules` returns. -/
structure EffectiveKept (legacyPermissionMap : Dict Str (List Str)) (rows : List RoleRow) (held : Int → Bool)
    (before after : List Str) : Prop where
  computed : effectiveRules legacyPermissionMap rows held = .ok before
  computed' : effectiveRules legacyPermissionMap
    (normalizeLegacyRoleActions legacyPermissionMap rows).1 held = .ok after
  no_more : after ⊆ before
  lost : ∀ s ∈ before, s ∉ after → ∃ row ∈ rows, held row.id = true ∧
    ∃ a ∈ row.actions, a ∈ REMOVED_ROLE_ACTIONS ∧ s ∈ (legacyPermissionMap.get a).getD []

/-- The rules of a user stay, but for those that only removed actions contribute. -/
theorem effective_kept (h : NormalMap legacyPermissionMap) (rows : List RoleRow) (held : Int → Bool) :
    ∃ before after, EffectiveKept legacyPermissionMap rows held before after := by
  obtain ⟨before, hbefore, hmem⟩ := effectiveRules_ok h rows held
  obtain ⟨after, hafter, hmem'⟩ := effectiveRules_ok h (normalizeLegacyRoleActions legacyPermissionMap rows).1 held
  have hafterIff : ∀ s, s ∈ after ↔ ∃ row ∈ rows, held row.id = true ∧
      (s ∈ row.permissions ∨ s ∈ mappedRules (row.actions.filter isKept) legacyPermissionMap) := by
    intro s
    simp only [hmem', normalizeLegacyRoleActions, List.mem_map, exists_exists_and_eq_and, normalizeRow_id,
      contributes_normalizeRow]
  refine ⟨before, after, hbefore, hafter, fun s hs => ?_, fun s hs hlost => ?_⟩
  · obtain ⟨row, hrow, hheld, hs⟩ := (hafterIff s).1 hs
    refine (hmem s).2 ⟨row, hrow, hheld, hs.imp_right fun hs => ?_⟩
    obtain ⟨a, ha, hs⟩ := mem_mappedRules.1 hs
    exact mem_mappedRules.2 ⟨a, List.mem_of_mem_filter ha, hs⟩
  · obtain ⟨row, hrow, hheld, hs | hs⟩ := (hmem s).1 hs
    · exact absurd ((hafterIff s).2 ⟨row, hrow, hheld, .inl hs⟩) hlost
    · obtain ⟨a, ha, hs⟩ := mem_mappedRules.1 hs
      by_cases hkept : isKept a = true
      · have hs' := mem_mappedRules.2 ⟨a, List.mem_filter.2 ⟨ha, hkept⟩, hs⟩
        exact absurd ((hafterIff s).2 ⟨row, hrow, hheld, .inr hs'⟩) hlost
      · exact ⟨row, hrow, hheld, a, ha, by simpa [isKept] using hkept, hs⟩

/-! ## Reported permissions -/

theorem rulesAllow_iff {rules : List Str} {resource operation scope : Str} :
    RulesAllow rules resource operation scope ↔
      permissionLanguage.Grants (ruleSet rules) ⟨resource, operation, scope⟩ := by
  constructor
  · rintro ⟨rule, hrule, hallows⟩
    obtain ⟨r, hr, hallows⟩ := Except.bind_eq_ok.1 hallows
    exact ⟨r, ⟨rule, hrule, hr⟩, Except.ok.inj hallows⟩
  · rintro ⟨r, ⟨rule, hrule, hr⟩, hallows⟩
    refine ⟨rule, hrule, ?_⟩
    rw [permissionRuleAllows, hr, Except.ok_bind]
    exact congrArg Except.ok hallows

theorem rulesAllow_of_valid {rules : List Str} (h : AllRules rules) {resource operation scope : Str} :
    RulesAllow rules resource operation scope ↔ permissionRulesAllow rules resource operation scope = .ok true := by
  rw [rulesAllow_iff, permissionRulesAllow_true_iff h]
  rfl

/-- What is reported for the row afterwards allows what the row's permissions reported before, the rules
of removed actions left out. -/
def ReportKept (legacyPermissionMap : Dict Str (List Str)) (row : RoleRow) : Prop :=
  ∀ resource operation scope,
    RulesAllow (derivePermissions legacyPermissionMap (row.actions.filter isKept) row.permissions)
      resource operation scope →
      RulesAllow (reportedPermissions legacyPermissionMap (normalizeRow legacyPermissionMap row).1)
        resource operation scope

/-- The rules written into the permissions of the row. -/
def filledRules (legacyPermissionMap : Dict Str (List Str)) (row : RoleRow) : List Str :=
  mappedRules (row.actions.filter isFilled) legacyPermissionMap

/-- The row had permissions of its own, or gets none, or those it gets allow whatever a rule of its other
actions asks for. -/
def FilledCover (legacyPermissionMap : Dict Str (List Str)) (row : RoleRow) : Prop :=
  row.permissions ≠ [] ∨ filledRules legacyPermissionMap row = [] ∨
    ∀ rule ∈ mappedRules (row.actions.filter isKept) legacyPermissionMap, ∀ r, normalizePermissionRule rule = .ok r →
      RulesAllow (filledRules legacyPermissionMap row) r.resource r.operation.text r.scope.text

theorem ruleSet_mono {a b : List Str} (h : a ⊆ b) : ruleSet a ⊆ ruleSet b := fun _ ⟨s, hs, hr⟩ => ⟨s, h hs, hr⟩

theorem mem_reported_normalizeRow {row : RoleRow} {s : Str} :
    s ∈ reportedPermissions legacyPermissionMap (normalizeRow legacyPermissionMap row).1 ↔
      s ∈ row.permissions ∨ s ∈ filledRules legacyPermissionMap row ∨
        (row.permissions = [] ∧ filledRules legacyPermissionMap row = []) ∧
          s ∈ mappedRules (row.actions.filter isKept) legacyPermissionMap := by
  have hnil : ∀ l : List Str, sortedSet l = [] ↔ l = [] := by
    intro l
    simp only [List.eq_nil_iff_forall_not_mem, mem_sortedSet]
  rw [reportedPermissions, mem_derivePermissions, normalizeRow_permissions, normalizeRow_actions, hnil,
    List.append_eq_nil_iff, mem_sortedSet, List.mem_append, or_assoc]
  simp only [mem_mappedRules, mem_sortedSet, filledRules]

theorem reportKept_iff (row : RoleRow) : ReportKept legacyPermissionMap row ↔ FilledCover legacyPermissionMap row := by
  simp only [ReportKept, FilledCover, rulesAllow_iff]
  by_cases hown : row.permissions = []
  · by_cases hfilled : filledRules legacyPermissionMap row = []
    · refine ⟨fun _ => .inr (.inl hfilled), fun _ resource operation scope hg => hg.mono (ruleSet_mono fun s hs => ?_)⟩
      rcases mem_derivePermissions.1 hs with hs | ⟨-, hs⟩
      · exact mem_reported_normalizeRow.2 (.inl hs)
      · exact mem_reported_normalizeRow.2 (.inr (.inr ⟨⟨hown, hfilled⟩, hs⟩))
    · have hafter : ruleSet (reportedPermissions legacyPermissionMap (normalizeRow legacyPermissionMap row).1) =
          ruleSet (filledRules legacyPermissionMap row) := by
        apply ruleSet_congr
        intro s
        rw [mem_reported_normalizeRow]
        simp [hown, hfilled]
      have hbefore : ruleSet (derivePermissions legacyPermissionMap (row.actions.filter isKept) row.permissions) =
          ruleSet (mappedRules (row.actions.filter isKept) legacyPermissionMap) := by
        apply ruleSet_congr
        intro s
        rw [mem_derivePermissions]
        simp [hown]
      rw [hafter, hbefore]
      simp only [hown, ne_eq, not_true, hfilled, false_or]
      constructor
      · intro h rule hrule r hr
        exact h _ _ _ ⟨r, ⟨rule, hrule, hr⟩, permissionLanguage.allows_ask r⟩
      · rintro h resource operation scope ⟨r, ⟨rule, hrule, hr⟩, hallows⟩
        have hcover : permissionLanguage.Grants (ruleSet (filledRules legacyPermissionMap row))
            (permissionLanguage.ask r) :=
          h rule hrule r hr
        exact hcover.trans hallows
  · refine ⟨fun _ => .inl hown, fun _ resource operation scope hg => hg.mono (ruleSet_mono fun s hs => ?_)⟩
    rcases mem_derivePermissions.1 hs with hs | ⟨hnil, -⟩
    · exact mem_reported_normalizeRow.2 (.inl hs)
    · exact absurd hnil hown

/-- **The migration.** A second run updates no row and the rules of every user stay, those of removed
actions apart; what is reported stays exactly where the filled permissions cover the other actions. -/
theorem migration_keeps_iff {custom : List (Str × List Str)}
    (h : mergedLegacyPermissionMap custom = .ok legacyPermissionMap)
    (rows : List RoleRow) :
    ((normalizeLegacyRoleActions legacyPermissionMap (normalizeLegacyRoleActions legacyPermissionMap rows).1).2 = 0 ∧
      (∀ held, ∃ before after, EffectiveKept legacyPermissionMap rows held before after) ∧
      ∀ row ∈ rows, ReportKept legacyPermissionMap row) ↔
    ∀ row ∈ rows, FilledCover legacyPermissionMap row := by
  simp only [normalize_again, effective_kept (NormalMap.of_loaded h), reportKept_iff, implies_true, true_and]

/-- A role that was given its actions before permissions were stored. -/
def actionsOnly : RoleRow := ⟨1, "operator".toList, ["view-ai", "view-jobs"], []⟩

/-- The rules of `view-ai` take the place of those of `view-jobs` in what is reported. -/
theorem view_jobs_not_reported : (∀ action ∈ actionsOnly.actions, action ∉ REMOVED_ROLE_ACTIONS) ∧
    RulesAllow (reportedPermissions defaultLegacyRules actionsOnly) "jobs".toList "view".toList "*".toList ∧
    ¬ RulesAllow (reportedPermissions defaultLegacyRules (normalizeRow defaultLegacyRules actionsOnly).1)
      "jobs".toList "view".toList "*".toList := by
  have hbefore : reportedPermissions defaultLegacyRules actionsOnly = ["ai:view:*", "jobs:view:*"] := by decide
  have hafter : reportedPermissions defaultLegacyRules
      (normalizeRow defaultLegacyRules actionsOnly).1 = ["ai:view:*"] := by
    decide
  rw [hbefore, hafter, rulesAllow_of_valid (allRules_of_isOk (by decide)),
    rulesAllow_of_valid (allRules_of_isOk (by decide))]
  exact ⟨by decide, by decide, by decide⟩

theorem migration_keeps_iff_actionsOnly :
    ((normalizeLegacyRoleActions defaultLegacyRules
      (normalizeLegacyRoleActions defaultLegacyRules [actionsOnly]).1).2 = 0 ∧
      (∀ held, ∃ before after, EffectiveKept defaultLegacyRules [actionsOnly] held before after) ∧
      ∀ row ∈ [actionsOnly], ReportKept defaultLegacyRules row) ↔
    ∀ row ∈ [actionsOnly], FilledCover defaultLegacyRules row :=
  migration_keeps_iff mergedLegacyPermissionMap_nil [actionsOnly]

end RoleMigration

end SlurmWeb
