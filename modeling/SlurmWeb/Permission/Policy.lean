import SlurmWeb.Permission.LegacyMap

/-!
# The policy manager (slurmweb/access_control.py, persistence/access_control_store.py)

`AccessControlPolicyManager` merges what the policy file grants a user with the roles stored in
the database. With access control the request is matched against the merged rules; without it
the permission map is searched for an action that covers the request.

| here | there |
| --- | --- |
| `FilePolicy` | the RBAC policy manager of the rfl package, a parameter |
| `Role`, `AccessControlStore.userPermissions` | a row of `roles`, `user_permissions` (access_control_store.py:291) |
| `customRolesActionsRules` | :74 |
| `rolesActionsSources` | :97 |
| `allowedUserAction`, `allowedUserPermission` | :143, :148 |

* `rolesActionsSources_ok` — the merged rules and the merged actions, as sets.
* `allowedUserPermission_available`, `allowedUserPermission_unavailable` — the decision on each
  side of the switch.
-/

namespace SlurmWeb

open Strings RuleLanguage

inductive User
  | anonymous
  | authenticated (login : Str) (groups : List Str)
deriving DecidableEq, Repr

structure FilePolicy where
  rolesActions : User → List Str × List Str
  allowedAnonymousAction : Str → Bool
  definitionActions : List Str

/-- The lists `normalize_rules` (access_control.py:176) returns. -/
abbrev NormalRules := {rules : List Str // ∀ s ∈ rules, IsNormalRule s}

def normalizeRules (rules : List Str) : Except RuleError NormalRules :=
  match h : sortPermissionRules rules with
  | .error e => .error e
  | .ok out => .ok ⟨out, sortPermissionRules_normal h⟩

theorem normalizeRules_ok {rules : List Str} (h : AllRules rules) :
    ∃ out, normalizeRules rules = .ok out ∧ ruleSet out.val = ruleSet rules := by
  obtain ⟨out, hout, -, hset⟩ := sortPermissionRules_ok h
  refine ⟨⟨out, sortPermissionRules_normal hout⟩, ?_, hset⟩
  unfold normalizeRules
  split
  · rename_i e he; rw [hout] at he; cases he
  · rename_i o ho; rw [hout] at ho; cases ho; rfl

theorem NormalRules.valid (rules : NormalRules) : AllRules rules.val := AllRules.of_normal rules.property

/-- Rules that the checks accept: rows of before rules were normalised hold other texts of theirs. -/
abbrev ValidRules := {rules : List Str // AllRules rules}

def NormalRules.toValid (rules : NormalRules) : ValidRules := ⟨rules.val, rules.valid⟩

/-- A row of the `roles` table. -/
structure Role where
  name : Str
  description : Option Str
  actions : List Str
  permissions : ValidRules

structure AccessControlStore where
  legacyPermissionMap : LegacyMap
  /-- The rows the query of `user_permissions` (:296) returns; `none` when it raises. -/
  roleRows : Str → Option (List Role)

/-- `_derive_permissions` (:30) -/
def AccessControlStore.derivePermissions (store : AccessControlStore) (role : Role) : List Str :=
  if role.permissions.val ≠ [] then role.permissions.val
  else sortedSet (mappedRules role.actions store.legacyPermissionMap.rules)

structure Assignment where
  roles : List Str
  actions : List Str
  rules : List Str

/-- `user_permissions` (:291), with lists for the three sets. -/
def AccessControlStore.userPermissions (store : AccessControlStore) (username : Str) : Option Assignment :=
  (store.roleRows username).map fun rows =>
    ⟨rows.map Role.name, rows.flatMap Role.actions, rows.flatMap store.derivePermissions⟩

structure AccessControlPolicyManager where
  filePolicy : FilePolicy
  accessControlEnabled : Bool
  accessControlStore : Option AccessControlStore
  legacyPermissionMap : LegacyMap

namespace AccessControlPolicyManager

variable (m : AccessControlPolicyManager)

/-- `access_control_available` (:53), with the store it speaks of. -/
def availableStore : Option AccessControlStore :=
  if m.accessControlEnabled then m.accessControlStore else none

def accessControlAvailable : Bool := m.availableStore.isSome

/-- The guarded call of `user_permissions` (:77-92): anonymous users, a missing store and a
failing query all leave the file policy alone. -/
def customPermissions : User → Option Assignment
  | .anonymous => none
  | .authenticated login _ => m.availableStore.bind fun store => store.userPermissions login

def customRolesActionsRules (user : User) : Except RuleError Assignment :=
  match m.customPermissions user with
  | none => return ⟨[], [], []⟩
  | some ⟨roles, actions, rules⟩ => do
    let customRules ← legacyActionsToRules actions m.legacyPermissionMap.rules
    return ⟨roles, actions, customRules ++ rules⟩

structure Sources where
  policy : Assignment
  custom : Assignment
  merged : Assignment

/-- `roles_actions_sources` (:97); the merged assignment is also the top level of the result. -/
def rolesActionsSources (user : User) : Except RuleError Sources := do
  let (policyRoles, policyActions) := m.filePolicy.rolesActions user
  let policyRules ← legacyActionsToRules policyActions m.legacyPermissionMap.rules
  let custom ← m.customRolesActionsRules user
  let mergedRules := policyRules ++ custom.rules
  let derived ← permissionRulesToLegacyActions mergedRules m.legacyPermissionMap.rules
  return {
    policy := ⟨policyRoles, policyActions, policyRules⟩
    custom := custom
    merged := ⟨policyRoles ++ custom.roles, policyActions ++ custom.actions ++ derived, mergedRules⟩ }

/-- `allowed_user_action` (:143) -/
def allowedUserAction (user : User) (action : Str) : Except RuleError Bool :=
  match user with
  | .anonymous => return m.filePolicy.allowedAnonymousAction action
  | .authenticated _ _ => do
    let sources ← m.rolesActionsSources user
    return sources.merged.actions.contains action

/-- The loop over the permission map (:163-173). -/
def anyLegacyAction (user : User) (resource operation scope : Str) :
    List (Str × List Str) → Except RuleError Bool
  | [] => return false
  | (action, rules) :: entries => do
    if ← permissionRulesAllow rules resource operation scope then
      if ← m.allowedUserAction user action then return true
      else anyLegacyAction user resource operation scope entries
    else anyLegacyAction user resource operation scope entries

/-- `allowed_user_permission` (:148) -/
def allowedUserPermission (user : User) (resource operation scope : Str) : Except RuleError Bool :=
  if m.accessControlAvailable then
    match user with
    | .anonymous => return false
    | .authenticated _ _ => do
      let sources ← m.rolesActionsSources user
      permissionRulesAllow sources.merged.rules resource operation scope
  else m.anyLegacyAction user resource operation scope m.legacyPermissionMap.rules.entries

/-! ## What a user is granted -/

/-- The rules of the policy file's actions. -/
def policyGrants (user : User) : Set PermissionRule :=
  expand m.legacyPermissionMap.bundle {a | a ∈ (m.filePolicy.rolesActions user).2}

/-- The rules of the custom roles: those stored, and those of their actions. -/
def customGrants (user : User) : Set PermissionRule :=
  match m.customPermissions user with
  | none => ∅
  | some custom => expand m.legacyPermissionMap.bundle {a | a ∈ custom.actions} ∪ ruleSet custom.rules

def customActions (user : User) : List Str :=
  match m.customPermissions user with
  | none => []
  | some custom => custom.actions

def granted (user : User) : Set PermissionRule := m.policyGrants user ∪ m.customGrants user

/-- The rules of a user as strings: those of the file's actions, of the custom roles' actions and
of the custom roles themselves. -/
def grantedRules (user : User) : List Str :=
  mappedRules (m.filePolicy.rolesActions user).2 m.legacyPermissionMap.rules ++
    match m.customPermissions user with
    | none => []
    | some custom => mappedRules custom.actions m.legacyPermissionMap.rules ++ custom.rules

end AccessControlPolicyManager

theorem AccessControlStore.derivePermissions_valid (store : AccessControlStore) (role : Role) :
    AllRules (store.derivePermissions role) := by
  unfold derivePermissions
  split
  · exact role.permissions.property
  · intro s hs
    exact store.legacyPermissionMap.mappedRules_valid role.actions s (mem_sortedSet.1 hs)

namespace AccessControlPolicyManager

variable {m : AccessControlPolicyManager}

theorem customPermissions_valid {user : User} {custom : Assignment} (h : m.customPermissions user = some custom) :
    AllRules custom.rules := by
  cases user with
  | anonymous => cases h
  | authenticated login groups =>
    obtain ⟨store, -, h⟩ := Option.bind_eq_some_iff.1 h
    obtain ⟨rows, -, rfl⟩ := Option.map_eq_some_iff.1 h
    intro s hs
    obtain ⟨role, -, hs⟩ := List.mem_flatMap.1 hs
    exact store.derivePermissions_valid role s hs

theorem grantedRules_spec (m : AccessControlPolicyManager) (user : User) :
    AllRules (m.grantedRules user) ∧ ruleSet (m.grantedRules user) = m.granted user := by
  unfold grantedRules granted customGrants policyGrants
  have hmapped : ∀ actions, ruleSet (mappedRules actions m.legacyPermissionMap.rules) =
      expand m.legacyPermissionMap.bundle {a | a ∈ actions} := fun actions => ruleSet_flatMap _ _
  cases h : m.customPermissions user with
  | none =>
    refine ⟨(m.legacyPermissionMap.mappedRules_valid _).append (by simp [AllRules]), ?_⟩
    simp only [List.append_nil, Set.union_empty, hmapped]
  | some custom =>
    refine ⟨(m.legacyPermissionMap.mappedRules_valid _).append
      ((m.legacyPermissionMap.mappedRules_valid _).append (customPermissions_valid h)), ?_⟩
    simp only [ruleSet_append, hmapped]

theorem customRolesActionsRules_ok (m : AccessControlPolicyManager) (user : User) :
    ∃ c, m.customRolesActionsRules user = .ok c ∧ AllRules c.rules ∧ ruleSet c.rules = m.customGrants user ∧
      c.actions = m.customActions user := by
  unfold customRolesActionsRules customGrants customActions
  cases h : m.customPermissions user with
  | none => exact ⟨⟨[], [], []⟩, rfl, by simp [AllRules], by ext; simp [ruleSet], rfl⟩
  | some custom =>
    obtain ⟨out, hout, hn, hset⟩ := legacyActionsToRules_ok custom.actions m.legacyPermissionMap
    refine ⟨⟨custom.roles, custom.actions, out ++ custom.rules⟩, by simp [hout], ?_, ?_, rfl⟩
    · exact (AllRules.of_normal hn).append (customPermissions_valid h)
    · rw [ruleSet_append, hset]

/-- **The merged payload.** The rules are those of the file's actions and of the custom roles;
the actions also contain every action the merged rules derive. -/
theorem rolesActionsSources_ok (m : AccessControlPolicyManager) (user : User) :
    ∃ s, m.rolesActionsSources user = .ok s ∧ AllRules s.merged.rules ∧ ruleSet s.merged.rules = m.granted user ∧
      ∀ a, a ∈ s.merged.actions ↔ a ∈ (m.filePolicy.rolesActions user).2 ∨ a ∈ m.customActions user ∨
        a ∈ permissionLanguage.Derived m.legacyPermissionMap.bundle (m.granted user) := by
  obtain ⟨policyRules, hp, hpn, hpset⟩ :=
    legacyActionsToRules_ok (m.filePolicy.rolesActions user).2 m.legacyPermissionMap
  obtain ⟨custom, hc, hcv, hcset, hca⟩ := m.customRolesActionsRules_ok user
  have hv : AllRules (policyRules ++ custom.rules) := (AllRules.of_normal hpn).append hcv
  have hset : ruleSet (policyRules ++ custom.rules) = m.granted user := by
    rw [ruleSet_append, hpset, hcset]; rfl
  obtain ⟨derived, hd, hdm⟩ := permissionRulesToLegacyActions_ok hv m.legacyPermissionMap
  have hs : m.rolesActionsSources user = .ok {
      policy := ⟨(m.filePolicy.rolesActions user).1, (m.filePolicy.rolesActions user).2, policyRules⟩
      custom := custom
      merged := ⟨(m.filePolicy.rolesActions user).1 ++ custom.roles,
        (m.filePolicy.rolesActions user).2 ++ custom.actions ++ derived, policyRules ++ custom.rules⟩ } := by
    simp only [rolesActionsSources, hp, hc, hd, Except.ok_bind, Except.pure_eq_ok]
  refine ⟨_, hs, hv, hset, fun a => ?_⟩
  simp only [List.mem_append, hca, hdm, hset, or_assoc]

theorem allowedUserAction_ok (m : AccessControlPolicyManager) (login : Str) (groups : List Str) (action : Str) :
    ∃ b, m.allowedUserAction (.authenticated login groups) action = .ok b ∧ (b = true ↔
      action ∈ (m.filePolicy.rolesActions (.authenticated login groups)).2 ∨
      action ∈ m.customActions (.authenticated login groups) ∨
      action ∈ permissionLanguage.Derived m.legacyPermissionMap.bundle (m.granted (.authenticated login groups))) := by
  obtain ⟨s, hs, -, -, hact⟩ := m.rolesActionsSources_ok (.authenticated login groups)
  exact ⟨s.merged.actions.contains action, by simp [allowedUserAction, hs], by simp [hact]⟩

/-- **With access control** a request is allowed when a granted rule allows it. -/
theorem allowedUserPermission_available (h : m.accessControlAvailable = true) (login : Str) (groups : List Str)
    (resource operation scope : Str) :
    ∃ b, m.allowedUserPermission (.authenticated login groups) resource operation scope = .ok b ∧
      (b = true ↔ permissionLanguage.Grants (m.granted (.authenticated login groups))
        ⟨resource, operation, scope⟩) := by
  obtain ⟨s, hs, hv, hset, -⟩ := m.rolesActionsSources_ok (.authenticated login groups)
  obtain ⟨b, hb, hiff⟩ := permissionRulesAllow_grants hv resource operation scope
  refine ⟨b, by simp [allowedUserPermission, h, hs, hb], ?_⟩
  rw [hiff, hset]

/-- The loop finds an action the user has and whose rules allow the request. -/
theorem anyLegacyAction_ok (m : AccessControlPolicyManager) (login : Str) (groups : List Str)
    (resource operation scope : Str) : ∀ entries : List (Str × List Str), (∀ e ∈ entries, AllRules e.2) →
      ∃ b, m.anyLegacyAction (.authenticated login groups) resource operation scope entries = .ok b ∧
        (b = true ↔ ∃ a rs, (a, rs) ∈ entries ∧
          permissionLanguage.Grants (ruleSet rs) ⟨resource, operation, scope⟩ ∧
          m.allowedUserAction (.authenticated login groups) a = .ok true)
  | [], _ => ⟨false, rfl, by simp⟩
  | (action, rules) :: entries, h => by
    obtain ⟨c, hc, hciff⟩ := permissionRulesAllow_grants (h (action, rules) (by simp)) resource operation scope
    obtain ⟨a, ha, -⟩ := m.allowedUserAction_ok login groups action
    obtain ⟨b, hb, hiff⟩ := m.anyLegacyAction_ok login groups resource operation scope
      entries fun e he => h e (by simp [he])
    have hrest : ∀ {P : Str → List Str → Prop}, (∃ a rs, (a, rs) ∈ (action, rules) :: entries ∧ P a rs) ↔
        P action rules ∨ ∃ a rs, (a, rs) ∈ entries ∧ P a rs := by
      intro P
      simp only [List.mem_cons, Prod.mk.injEq, or_and_right, exists_or, and_assoc, exists_eq_left, exists_and_left]
    simp only [hrest, ← hciff, ha, ← hiff, Except.ok.injEq]
    cases c <;> cases a <;> simp [anyLegacyAction, hc, ha, hb]

/-- **Without access control** a request is allowed when an action covers it that the user has
from the file, or that the rules of the file's actions derive. -/
theorem allowedUserPermission_unavailable (h : m.accessControlAvailable = false) (login : Str) (groups : List Str)
    (resource operation scope : Str) :
    ∃ b, m.allowedUserPermission (.authenticated login groups) resource operation scope = .ok b ∧
      (b = true ↔ permissionLanguage.Grants (m.policyGrants (.authenticated login groups) ∪
        expand m.legacyPermissionMap.bundle (permissionLanguage.Derived m.legacyPermissionMap.bundle
          (m.policyGrants (.authenticated login groups)))) ⟨resource, operation, scope⟩) := by
  obtain ⟨b, hb, hiff⟩ := m.anyLegacyAction_ok login groups resource operation scope
    m.legacyPermissionMap.rules.entries fun e he =>
      m.legacyPermissionMap.valid e.1 e.2 (Dict.mem_entries_iff.1 he)
  have hnone : m.customPermissions (.authenticated login groups) = none := by
    have : m.availableStore = none := by simpa [accessControlAvailable] using h
    simp [customPermissions, this]
  have hgr : m.granted (.authenticated login groups) = m.policyGrants (.authenticated login groups) := by
    simp [granted, customGrants, hnone]
  refine ⟨b, by simp [allowedUserPermission, h, hb], ?_⟩
  rw [hiff]
  have hact : ∀ a, m.allowedUserAction (.authenticated login groups) a = .ok true ↔
      a ∈ (m.filePolicy.rolesActions (.authenticated login groups)).2 ∨
      a ∈ permissionLanguage.Derived m.legacyPermissionMap.bundle (m.policyGrants (.authenticated login groups)) := by
    intro a
    obtain ⟨c, hc, hciff⟩ := m.allowedUserAction_ok login groups a
    rw [hc, Except.ok.injEq, hciff, hgr]
    simp [customActions, hnone]
  simp only [hact, LegacyMap.exists_entry_iff, or_and_right, exists_or]
  rw [grants_union, policyGrants, grants_expand, grants_expand]
  rfl

/-- The decision never raises, on either side of the switch. -/
theorem allowedUserPermission_total (m : AccessControlPolicyManager) (login : Str) (groups : List Str)
    (resource operation scope : Str) :
    ∃ b, m.allowedUserPermission (.authenticated login groups) resource operation scope = .ok b := by
  cases h : m.accessControlAvailable with
  | true =>
    obtain ⟨b, hb, -⟩ := m.allowedUserPermission_available h login groups resource operation scope
    exact ⟨b, hb⟩
  | false =>
    obtain ⟨b, hb, -⟩ := m.allowedUserPermission_unavailable h login groups resource operation scope
    exact ⟨b, hb⟩

/-- Who is granted every scope is granted `self`. -/
theorem allowedUserPermission_self (m : AccessControlPolicyManager) (login : Str) (groups : List Str)
    (resource operation : Str)
    (h : m.allowedUserPermission (.authenticated login groups) resource operation "*" = .ok true) :
    m.allowedUserPermission (.authenticated login groups) resource operation "self" = .ok true := by
  -- a rule that allows scope `*` has scope `*`
  have hscope : ∀ r : PermissionRule, r.allows resource operation "*" = true →
      r.allows resource operation "self" = true := by
    intro r hr
    simp only [PermissionRule.allows, Bool.and_eq_true] at hr ⊢
    refine ⟨hr.1, ?_⟩
    have := hr.2
    cases hs : r.scope
    · rfl
    · rw [hs] at this; exact absurd this (by decide)
  have hmono : ∀ P : Set PermissionRule, permissionLanguage.Grants P ⟨resource, operation, "*"⟩ →
      permissionLanguage.Grants P ⟨resource, operation, "self"⟩ := fun P ⟨r, hr, ha⟩ => ⟨r, hr, hscope r ha⟩
  cases hav : m.accessControlAvailable with
  | true =>
    obtain ⟨b, hb, hiff⟩ := m.allowedUserPermission_available hav login groups resource operation "*"
    obtain ⟨c, hc, hciff⟩ := m.allowedUserPermission_available hav login groups resource operation "self"
    rw [hb, Except.ok.injEq] at h
    rw [hc, hciff.2 (hmono _ (hiff.1 h))]
  | false =>
    obtain ⟨b, hb, hiff⟩ := m.allowedUserPermission_unavailable hav login groups resource operation "*"
    obtain ⟨c, hc, hciff⟩ := m.allowedUserPermission_unavailable hav login groups resource operation "self"
    rw [hb, Except.ok.injEq] at h
    rw [hc, hciff.2 (hmono _ (hiff.1 h))]

end AccessControlPolicyManager

end SlurmWeb
