import SlurmWeb.Permission.Policy

/-!
# Roles, derived actions and the access-control switch

A role sent without actions is stored with the actions its rules derive (`_role_payload`,
slurmweb/views/agent.py:330, and `seed_default_roles`, access_control_store.py:536), and the
policy manager expands these actions back into rules. An action is derived from any one of its
rules but expands to all of them, so the round trip is neutral only on rules that are closed
under the permission map (`ActionsCovered`).

* `sole_role_allowed_iff` — a role grants what its rules grant exactly when they are closed.
* `switch_allowed_iff` — access control on and off agree exactly when the rules of the file's
  actions are closed.
-/

namespace SlurmWeb

open Strings RuleLanguage

/-! ## Writing a role -/

/-- The errors `_role_payload` answers with: 400s, and the `ValueError` of an invalid rule. -/
inductive RolePayloadError
  | nameRequired
  | invalidRule (err : RuleError)
  | unknownActions (actions : List Str)
deriving DecidableEq, Repr

/-- The JSON object of a role request; lists of strings, as `_role_payload` requires them. -/
structure RolePayload where
  name : Str
  description : Option Str
  actions : List Str
  permissions : List Str

/-- `_sorted_strings` (agent.py:262) on strings. -/
def sortedStrings (values : List Str) : List Str := sorted (values.filter (· ≠ []))

/-- `sorted(set(actions) - definition_actions)` -/
def unknownActions (m : AccessControlPolicyManager) (actions : List Str) : List Str :=
  sortedSet (actions.filter fun a => !m.filePolicy.definitionActions.contains a)

/-- The actions a role is stored with (agent.py:346): those sent, else those its rules derive. -/
def storedActions (m : AccessControlPolicyManager) (actions : List Str) (permissions : NormalRules) :
    Except RuleError (List Str) :=
  if actions ≠ [] then .ok actions
  else permissionRulesToLegacyActions permissions.val m.legacyPermissionMap.rules

/-- `_role_payload` (agent.py:330) -/
def rolePayload (m : AccessControlPolicyManager) (payload : RolePayload) : Except RolePayloadError Role :=
  if strip payload.name = [] then .error .nameRequired
  else do
    let actionRules ← (legacyActionsToRules (sortedStrings payload.actions) m.legacyPermissionMap.rules).mapError
      .invalidRule
    let permissions ← (normalizeRules (payload.permissions ++ actionRules)).mapError .invalidRule
    if unknownActions m (sortedStrings payload.actions) ≠ [] then
      .error (.unknownActions (unknownActions m (sortedStrings payload.actions)))
    else do
      let actions ← (storedActions m (sortedStrings payload.actions) permissions).mapError .invalidRule
      return ⟨strip payload.name, payload.description, actions, permissions.toValid⟩

/-- `user_rules` (permission_rules.py:335) -/
def userRules : List Str := ["dashboard:view:*", "analysis:view:*", "ai:view:*", "jobs:view:self", "jobs:edit:self",
  "jobs:delete:self", "jobs-history:view:*", "resources:view:*", "qos:view:*", "reservations:view:*",
  "accounts:view:*", "user/profile:view:self", "user/analysis:view:self", "jobs/filter-accounts:view:*",
  "jobs/filter-partitions:view:*", "jobs/filter-qos:view:*", "resources/filter-partitions:view:*",
  "settings/general:view:*", "settings/errors:view:*", "settings/account:view:*"]

/-- `default_seed_roles` (permission_rules.py:334), before the rules are sorted. -/
def defaultSeedRoles : List (Str × Str × List Str) := [
  ("user", "Read-only access to available routes and settings.", userRules),
  ("admin", "Global read and edit access across routes and settings.", ["*:view:*", "*:edit:*"]),
  ("super-admin", "Full access to all resources and operations.", ["*:*:*"])]

/-- One iteration of `seed_default_roles` (access_control_store.py:548). -/
def seedRole (M : LegacyMap) : Str × Str × List Str → Except RuleError Role
  | (name, description, rules) => do
    let permissions ← normalizeRules rules
    let actions ← permissionRulesToLegacyActions permissions.val M.rules
    return ⟨name, some description, actions, permissions.toValid⟩

/-- `seed_default_roles` (access_control_store.py:536) on an empty `roles` table. -/
def seedDefaultRoles (M : LegacyMap) : Except RuleError (List Role) :=
  defaultSeedRoles.mapM (seedRole M)

/-- A row that carries the rules `P` and the actions derived from them. -/
structure StoredWith (M : LegacyMap) (P : List Str) (role : Role) : Prop where
  permissions : ∃ rules, normalizeRules P = .ok rules ∧ role.permissions = rules.toValid
  actions : permissionRulesToLegacyActions role.permissions.val M.rules = .ok role.actions

theorem seedRole_storedWith {M : LegacyMap} {seed : Str × Str × List Str} {role : Role}
    (h : seedRole M seed = .ok role) : StoredWith M seed.2.2 role := by
  obtain ⟨permissions, hp, h⟩ := Except.bind_eq_ok.1 h
  obtain ⟨actions, ha, h⟩ := Except.bind_eq_ok.1 h
  cases h
  exact ⟨⟨permissions, hp, rfl⟩, ha⟩

theorem seedRole_ok (M : LegacyMap) (name description : Str) {rules : List Str} (h : AllRules rules) :
    ∃ role, seedRole M (name, description, rules) = .ok role := by
  obtain ⟨permissions, hp, -⟩ := normalizeRules_ok h
  obtain ⟨actions, ha, -⟩ := permissionRulesToLegacyActions_ok permissions.valid M
  exact ⟨⟨name, some description, actions, permissions.toValid⟩, by simp [seedRole, hp, ha]⟩

/-- Every seeded role is stored with the rules of its list and the actions derived from them. -/
theorem seedDefaultRoles_storedWith {M : LegacyMap} {roles : List Role} (h : seedDefaultRoles M = .ok roles) :
    List.Forall₂ (fun seed role => StoredWith M seed.2.2 role) defaultSeedRoles roles :=
  (Except.mapM_eq_ok.1 h).imp fun _ _ => seedRole_storedWith

theorem legacyActionsToRules_nil (legacyMap : Dict Str (List Str)) : legacyActionsToRules [] legacyMap = .ok [] := rfl

theorem mapError_eq_ok {ε ε' α : Type} {f : ε → ε'} {x : Except ε α} {a : α} : x.mapError f = .ok a ↔ x = .ok a := by
  cases x <;> simp [Except.mapError]

/-- A role sent without actions is stored with those its rules derive. -/
theorem rolePayload_storedWith {m : AccessControlPolicyManager} {payload : RolePayload} {role : Role}
    (hact : payload.actions = []) (h : rolePayload m payload = .ok role) :
    StoredWith m.legacyPermissionMap payload.permissions role := by
  have hs : sortedStrings payload.actions = [] := by rw [hact]; rfl
  unfold rolePayload at h
  by_cases hname : strip payload.name = []
  · rw [if_pos hname] at h; cases h
  rw [if_neg hname, hs] at h
  obtain ⟨rules, hr, h⟩ := Except.bind_eq_ok.1 h
  rw [legacyActionsToRules_nil] at hr
  cases mapError_eq_ok.1 hr
  obtain ⟨permissions, hp, h⟩ := Except.bind_eq_ok.1 h
  rw [List.append_nil] at hp
  -- without actions there is no unknown action, and the stored ones are derived
  rw [if_neg (by simp [unknownActions])] at h
  obtain ⟨actions, ha, h⟩ := Except.bind_eq_ok.1 h
  cases h
  exact ⟨⟨permissions, mapError_eq_ok.1 hp, rfl⟩, mapError_eq_ok.1 ha⟩

/-- The rules of the row are `P`, its actions are those of which `P` covers one rule. -/
theorem StoredWith.spec {M : LegacyMap} {P : List Str} {role : Role} (h : StoredWith M P role) (hP : AllRules P) :
    ruleSet role.permissions.val = ruleSet P ∧
      {a | a ∈ role.actions} = permissionLanguage.Derived M.bundle (ruleSet P) := by
  obtain ⟨out, hout, hset⟩ := normalizeRules_ok hP
  obtain ⟨actions, hact, hmem⟩ := permissionRulesToLegacyActions_ok role.permissions.property M
  obtain ⟨rules, hrules, hrole⟩ := h.permissions
  rw [hrules] at hout
  cases hout
  rw [h.actions] at hact
  cases hact
  have hstored : ruleSet role.permissions.val = ruleSet P := by
    rw [hrole]
    exact hset
  exact ⟨hstored, by ext a; rw [Set.mem_ofPred_eq, hmem a, hstored]⟩

/-- The store reads the row back with its rules, also when they are empty. -/
theorem StoredWith.derivePermissions {M : LegacyMap} {P : List Str} {role : Role} (h : StoredWith M P role)
    (hP : AllRules P) (store : AccessControlStore) : ruleSet (store.derivePermissions role) = ruleSet P := by
  obtain ⟨hperm, hact⟩ := h.spec hP
  unfold AccessControlStore.derivePermissions
  split
  · exact hperm
  · rename_i hnil
    rw [ne_eq, not_not] at hnil
    have hempty : ruleSet P = ∅ := by rw [← hperm, hnil]; ext; simp [ruleSet]
    -- no rules, no derived action, so nothing to expand
    have hnone : role.actions = [] := by
      refine List.eq_nil_iff_forall_not_mem.2 fun a ha => ?_
      have : a ∈ permissionLanguage.Derived M.bundle (ruleSet P) := hact ▸ ha
      obtain ⟨_, -, r, hr, -⟩ := this
      rw [hempty] at hr
      exact hr
    rw [hnone, hempty]
    ext; simp [ruleSet, mappedRules]

/-! ## Closed rule sets -/

/-- Every action of which `rules` cover one rule is covered as a whole. -/
def ActionsCovered (M : LegacyMap) (rules : List Str) : Prop :=
  ∀ action required, M.rules.get action = some required →
    ∀ r ∈ ruleSet required, permissionRulesAllow rules r.resource r.operation.text r.scope.text = .ok true →
      ∀ r' ∈ ruleSet required, permissionRulesAllow rules r'.resource r'.operation.text r'.scope.text = .ok true

theorem actionsCovered_iff {M : LegacyMap} {rules : List Str} (h : AllRules rules) :
    ActionsCovered M rules ↔ permissionLanguage.Closed M.bundle (ruleSet rules) := by
  have hask : ∀ r : PermissionRule, permissionRulesAllow rules r.resource r.operation.text r.scope.text = .ok true ↔
      permissionLanguage.Grants (ruleSet rules) (permissionLanguage.ask r) := fun r => permissionRulesAllow_true_iff h
  simp only [ActionsCovered, hask, Closed, Derived, LegacyMap.bundle, Set.mem_ofPred_eq]
  constructor
  · rintro hc a ⟨r, hr, hg⟩
    cases ha : M.rules.get a with
    | none => simp [ruleSet]
    | some required =>
      rw [ha] at hr
      exact hc a required ha r hr hg
  · intro hc a required ha r hr hg
    have := hc a ⟨r, by simpa [ha] using hr, hg⟩
    simpa [ha] using this

/-- Two checks that answer agree on all requests when what they answer does. -/
theorem answers_agree_iff {f g : Str → Str → Str → Except RuleError Bool} {P Q : Set PermissionRule}
    (hf : ∀ r o s, ∃ b, f r o s = .ok b ∧ (b = true ↔ permissionLanguage.Grants P ⟨r, o, s⟩))
    (hg : ∀ r o s, ∃ b, g r o s = .ok b ∧ (b = true ↔ permissionLanguage.Grants Q ⟨r, o, s⟩)) :
    (∀ r o s, f r o s = g r o s) ↔ ∀ q ∈ Set.univ, (permissionLanguage.Grants P q ↔ permissionLanguage.Grants Q q) := by
  have key : ∀ r o s, f r o s = g r o s ↔
      (permissionLanguage.Grants P ⟨r, o, s⟩ ↔ permissionLanguage.Grants Q ⟨r, o, s⟩) := by
    intro r o s
    obtain ⟨b, hb, hbi⟩ := hf r o s
    obtain ⟨c, hc, hci⟩ := hg r o s
    rw [hb, hc, ← hbi, ← hci, Except.ok.injEq, Bool.eq_iff_iff]
  simp only [key, Set.mem_univ, forall_const]
  exact ⟨fun h q => h q.resource q.operation q.scope, fun h r o s => h ⟨r, o, s⟩⟩

/-! ## A role as the only grant -/

/-- What a user is granted whose only grant is a role stored with `P`. -/
theorem granted_sole_role {m : AccessControlPolicyManager} {store : AccessControlStore} {login : Str}
    {groups P : List Str} {role : Role} (hstore : m.availableStore = some store)
    (hrows : store.roleRows login = some [role])
    (hfile : (m.filePolicy.rolesActions (.authenticated login groups)).2 = [])
    (hP : AllRules P) (hrole : StoredWith m.legacyPermissionMap P role) :
    m.granted (.authenticated login groups) = ruleSet P ∪
      expand m.legacyPermissionMap.bundle (permissionLanguage.Derived m.legacyPermissionMap.bundle (ruleSet P)) := by
  have hcustom : m.customPermissions (.authenticated login groups) =
      some ⟨[role.name], role.actions, store.derivePermissions role⟩ := by
    simp [AccessControlPolicyManager.customPermissions, hstore, AccessControlStore.userPermissions, hrows]
  have hpolicy : m.policyGrants (.authenticated login groups) = ∅ := by
    ext; simp [AccessControlPolicyManager.policyGrants, hfile, expand]
  simp only [AccessControlPolicyManager.granted, hpolicy, AccessControlPolicyManager.customGrants, hcustom,
    hrole.derivePermissions hP, (hrole.spec hP).2, Set.empty_union, Set.union_comm]

/-- **A role grants exactly what its rules grant if and only if they cover every action they
derive as a whole.** -/
theorem sole_role_allowed_iff {m : AccessControlPolicyManager} {store : AccessControlStore} {login : Str}
    {groups P : List Str} {role : Role} (hstore : m.availableStore = some store)
    (hrows : store.roleRows login = some [role])
    (hfile : (m.filePolicy.rolesActions (.authenticated login groups)).2 = [])
    (hP : AllRules P) (hrole : StoredWith m.legacyPermissionMap P role) :
    (∀ resource operation scope, m.allowedUserPermission (.authenticated login groups) resource operation scope =
      permissionRulesAllow P resource operation scope) ↔ ActionsCovered m.legacyPermissionMap P := by
  have hav : m.accessControlAvailable = true := by simp [AccessControlPolicyManager.accessControlAvailable, hstore]
  rw [answers_agree_iff (m.allowedUserPermission_available hav login groups) (permissionRulesAllow_grants hP),
    granted_sole_role hstore hrows hfile hP hrole, union_expand_iff (separates_univ _), actionsCovered_iff hP]

/-- Access control over an empty policy file: every user has the same custom roles. -/
def rolesOnly (M : LegacyMap) (roles : List Role) : AccessControlPolicyManager where
  filePolicy := ⟨fun _ => ([], []), fun _ => false, M.rules.keys⟩
  accessControlEnabled := true
  accessControlStore := some ⟨M, fun _ => some roles⟩
  legacyPermissionMap := M

/-- A role of `ai:view:*` alone: `view-ai`, the action it derives, has no other rule. -/
def aiViewer : Role where
  name := "ai-viewer"
  description := none
  actions := ["view-ai"]
  permissions := NormalRules.toValid ⟨["ai:view:*"], by decide⟩

theorem sole_role_ai_viewer :
    (∀ resource operation scope, (rolesOnly defaultLegacyMap [aiViewer]).allowedUserPermission
      (.authenticated "alice" []) resource operation scope =
        permissionRulesAllow ["ai:view:*"] resource operation scope) ↔
    ActionsCovered defaultLegacyMap ["ai:view:*"] :=
  sole_role_allowed_iff rfl rfl rfl aiViewer.permissions.property
    ⟨⟨⟨["ai:view:*"], by decide⟩, by decide, rfl⟩, by decide⟩

/-- A role as `_role_payload` stores it when actions are sent along. -/
def dashboardRole : Role where
  name := "dashboards"
  description := none
  actions := ["view-nodes"]
  permissions := ⟨["dashboard:view:*", "resources:view:*"], allRules_of_isOk (by decide)⟩

/-- One covered rule of an action brings the others along. -/
theorem grants_widened {M : LegacyMap} {P : Set PermissionRule} {action : Str} {required : List Str}
    (h : M.rules.get action = some required) {r r' : PermissionRule} (hr : r ∈ ruleSet required)
    (hr' : r' ∈ ruleSet required) (hg : permissionLanguage.Grants P (permissionLanguage.ask r)) :
    permissionLanguage.Grants (P ∪ expand M.bundle (permissionLanguage.Derived M.bundle P))
      (permissionLanguage.ask r') := by
  have hb : M.bundle action = ruleSet required := by simp [LegacyMap.bundle, h]
  refine grants_union.2 (.inr (grants_expand.2 ⟨action, ⟨r, hb ▸ hr, hg⟩, r', hb ▸ hr',
    permissionLanguage.allows_ask r'⟩))

theorem userRules_valid : AllRules userRules := by
  have : (userRules.mapM normalizePermissionRule).isOk = true := by decide
  exact allRules_of_isOk this

theorem userRules_profile : permissionRulesAllow userRules "user/profile" "view" "*" = .ok false := by decide

theorem associationsView_rules :
    defaultLegacyMap.rules.get "associations-view" = some ["accounts:view:*".toList, "user/profile:view:*".toList] := by
  decide

def accountsView : PermissionRule := .ofParts "accounts" .view .any (by decide)
  (by decide) (by simp [isSpace])

def profileView : PermissionRule := .ofParts "user/profile" .view .any (by decide)
  (by decide) (by simp [isSpace])

theorem accountsView_text : accountsView.text = "accounts:view:*".toList := by decide

theorem profileView_text : profileView.text = "user/profile:view:*".toList := by decide

/-- The seeded `user` role has `user/profile:view:self` only, but its `accounts:view:*` derives
`associations-view`, which expands to `user/profile:view:*`. -/
theorem seeded_user_role_widened :
    ¬ ∀ (m : AccessControlPolicyManager) (store : AccessControlStore) (login : Str) (groups P : List Str) (role : Role),
      m.availableStore = some store → store.roleRows login = some [role] →
      (m.filePolicy.rolesActions (.authenticated login groups)).2 = [] → AllRules P →
      StoredWith m.legacyPermissionMap P role → ∀ resource operation scope,
        m.allowedUserPermission (.authenticated login groups) resource operation scope =
          permissionRulesAllow P resource operation scope := by
  intro h
  obtain ⟨role, hrole⟩ := seedRole_ok defaultLegacyMap "user" "" userRules_valid
  have hrow := seedRole_storedWith hrole
  have hclaim := h (rolesOnly defaultLegacyMap [role]) ⟨defaultLegacyMap, fun _ => some [role]⟩ "alice" [] userRules
    role rfl rfl rfl userRules_valid hrow "user/profile" "view" "*"
  obtain ⟨b, hb, hiff⟩ := AccessControlPolicyManager.allowedUserPermission_available
    (m := rolesOnly defaultLegacyMap [role]) rfl "alice" [] "user/profile" "view" "*"
  rw [granted_sole_role rfl rfl rfl userRules_valid hrow] at hiff
  have haccounts : normalizePermissionRule "accounts:view:*" = .ok accountsView := by
    rw [← accountsView_text, normalize_text]
  have hprofile : normalizePermissionRule "user/profile:view:*" = .ok profileView := by
    rw [← profileView_text, normalize_text]
  have hwide : b = true := hiff.2 (grants_widened associationsView_rules
    ⟨_, List.mem_cons_self, haccounts⟩ ⟨_, List.mem_cons_of_mem _ List.mem_cons_self, hprofile⟩
    ⟨_, ⟨"accounts:view:*", by simp [userRules], haccounts⟩, permissionLanguage.allows_ask _⟩)
  rw [hb, hwide, userRules_profile] at hclaim
  cases hclaim

/-! ## The access-control switch -/

/-- **Switching access control on and off is neutral if and only if the rules of the file's
actions cover every action they derive as a whole.** -/
theorem switch_allowed_iff {on off : AccessControlPolicyManager} {login : Str} {groups : List Str}
    (hfile : off.filePolicy = on.filePolicy) (hmap : off.legacyPermissionMap = on.legacyPermissionMap)
    (hon : on.accessControlAvailable = true) (hoff : off.accessControlAvailable = false)
    (hempty : on.customPermissions (.authenticated login groups) = some ⟨[], [], []⟩) :
    (∀ resource operation scope, on.allowedUserPermission (.authenticated login groups) resource operation scope =
      off.allowedUserPermission (.authenticated login groups) resource operation scope) ↔
    ActionsCovered on.legacyPermissionMap
      (mappedRules (on.filePolicy.rolesActions (.authenticated login groups)).2 on.legacyPermissionMap.rules) := by
  have hpolicy : ruleSet (mappedRules (on.filePolicy.rolesActions (.authenticated login groups)).2
      on.legacyPermissionMap.rules) = on.policyGrants (.authenticated login groups) := ruleSet_flatMap _ _
  have hgranted : on.granted (.authenticated login groups) = on.policyGrants (.authenticated login groups) := by
    ext; simp [AccessControlPolicyManager.granted, AccessControlPolicyManager.customGrants, hempty, expand, ruleSet]
  have hoffp : off.policyGrants (.authenticated login groups) = on.policyGrants (.authenticated login groups) := by
    simp only [AccessControlPolicyManager.policyGrants, hfile, hmap]
  rw [answers_agree_iff (on.allowedUserPermission_available hon login groups)
    (off.allowedUserPermission_unavailable hoff login groups),
    actionsCovered_iff (on.legacyPermissionMap.mappedRules_valid _), hpolicy, hgranted, hoffp, hmap,
    ← union_expand_iff (separates_univ _)]
  simp only [iff_comm]

/-- The file grants every user the given actions; no custom role. -/
def fileOnly (M : LegacyMap) (actions : List Str) (accessControlEnabled : Bool) : AccessControlPolicyManager where
  filePolicy := ⟨fun _ => ([], actions), fun _ => false, M.rules.keys⟩
  accessControlEnabled := accessControlEnabled
  accessControlStore := some ⟨M, fun _ => some []⟩
  legacyPermissionMap := M

theorem switch_allowed_ai_viewer :
    (∀ resource operation scope,
      (fileOnly defaultLegacyMap ["view-ai"] true).allowedUserPermission (.authenticated "alice" [])
        resource operation scope =
      (fileOnly defaultLegacyMap ["view-ai"] false).allowedUserPermission (.authenticated "alice" [])
        resource operation scope) ↔
    ActionsCovered defaultLegacyMap (mappedRules ["view-ai"] defaultLegacyMap.rules) :=
  @switch_allowed_iff (fileOnly defaultLegacyMap ["view-ai"] true) (fileOnly defaultLegacyMap ["view-ai"] false) _ _
    rfl rfl rfl rfl rfl

/-- `cache-reset` stands for `admin/cache:edit:*`, which covers `admin/cache:view:*` of `cache-view`:
without access control the user also has the other rule of `cache-view`. -/
theorem switch_widens_cache_reset :
    ¬ ∀ (on off : AccessControlPolicyManager) (login : Str) (groups : List Str),
      off.filePolicy = on.filePolicy → off.legacyPermissionMap = on.legacyPermissionMap →
      on.accessControlAvailable = true → off.accessControlAvailable = false →
      on.customPermissions (.authenticated login groups) = some ⟨[], [], []⟩ → ∀ resource operation scope,
        on.allowedUserPermission (.authenticated login groups) resource operation scope =
          off.allowedUserPermission (.authenticated login groups) resource operation scope := by
  intro h
  have hon : (fileOnly defaultLegacyMap ["cache-reset"] true).allowedUserPermission (.authenticated "alice" [])
      "admin/ldap-users" "view" "*" = .ok false := by decide
  have hoff : (fileOnly defaultLegacyMap ["cache-reset"] false).allowedUserPermission (.authenticated "alice" [])
      "admin/ldap-users" "view" "*" = .ok true := by decide
  have hclaim := h (fileOnly defaultLegacyMap ["cache-reset"] true) (fileOnly defaultLegacyMap ["cache-reset"] false)
    "alice" [] rfl rfl rfl rfl rfl "admin/ldap-users" "view" "*"
  rw [hon, hoff] at hclaim
  cases hclaim

end SlurmWeb
