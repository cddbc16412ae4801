import SlurmWeb.Permission.Policy

/-!
# Rights grow with roles (slurmweb/access_control.py)

What the policy manager decides with an answer of `user_permissions` in place of a store. A failing
query is the answer `none`: the manager goes on with the file policy, as with the smallest answer.

| here | there |
| --- | --- |
| `customFrom` | `custom_roles_actions_rules` (:74), from the answer on |
| `sourcesFrom` | `roles_actions_sources` (:97) |
| `allowedActionFrom`, `allowedPermissionFrom` | `allowed_user_action`, `allowed_user_permission` (:143, :148) |

* `allowedUserPermission_eq`, `allowedUserAction_eq` — the manager decides with the answer of its store.
* `rights_grow` — a larger answer grants no less.
-/

namespace SlurmWeb

open Strings RuleLanguage

namespace AccessControlPolicyManager

variable (m : AccessControlPolicyManager)

def customFrom : Option Assignment → Except RuleError Assignment
  | none => return ⟨[], [], []⟩
  | some ⟨roles, actions, rules⟩ => do
    let customRules ← legacyActionsToRules actions m.legacyPermissionMap.rules
    return ⟨roles, actions, customRules ++ rules⟩

def sourcesFrom (user : User) (answer : Option Assignment) : Except RuleError Sources := do
  let (policyRoles, policyActions) := m.filePolicy.rolesActions user
  let policyRules ← legacyActionsToRules policyActions m.legacyPermissionMap.rules
  let custom ← m.customFrom answer
  let mergedRules := policyRules ++ custom.rules
  let derived ← permissionRulesToLegacyActions mergedRules m.legacyPermissionMap.rules
  return {
    policy := ⟨policyRoles, policyActions, policyRules⟩
    custom := custom
    merged := ⟨policyRoles ++ custom.roles, policyActions ++ custom.actions ++ derived, mergedRules⟩ }

def allowedActionFrom (user : User) (answer : Option Assignment) (action : Str) : Except RuleError Bool :=
  match user with
  | .anonymous => return m.filePolicy.allowedAnonymousAction action
  | .authenticated _ _ => do
    let sources ← m.sourcesFrom user answer
    return sources.merged.actions.contains action

/-- The branch of `allowed_user_permission` with access control. -/
def allowedPermissionFrom (user : User) (answer : Option Assignment) (resource operation scope : Str) :
    Except RuleError Bool :=
  match user with
  | .anonymous => return false
  | .authenticated _ _ => do
    let sources ← m.sourcesFrom user answer
    permissionRulesAllow sources.merged.rules resource operation scope

variable {m}

theorem rolesActionsSources_eq (user : User) :
    m.rolesActionsSources user = m.sourcesFrom user (m.customPermissions user) := by
  have hcustom : m.customRolesActionsRules user = m.customFrom (m.customPermissions user) := by
    rw [customRolesActionsRules]
    cases m.customPermissions user with
    | none => rfl
    | some custom => rfl
  rw [rolesActionsSources, hcustom]
  rfl

theorem allowedUserAction_eq (user : User) (action : Str) :
    m.allowedUserAction user action = m.allowedActionFrom user (m.customPermissions user) action := by
  cases user with
  | anonymous => rfl
  | authenticated login groups => rw [allowedUserAction, rolesActionsSources_eq, allowedActionFrom]

theorem allowedUserPermission_eq (h : m.accessControlAvailable = true) (user : User) (resource operation scope : Str) :
    m.allowedUserPermission user resource operation scope =
      m.allowedPermissionFrom user (m.customPermissions user) resource operation scope := by
  unfold allowedUserPermission
  rw [if_pos h]
  cases user with
  | anonymous => rfl
  | authenticated login groups =>
    dsimp only
    rw [rolesActionsSources_eq, allowedPermissionFrom]

end AccessControlPolicyManager

/-! ## What an answer grants -/

/-- An answer with valid rules. -/
def ValidAnswer (answer : Option Assignment) : Prop := ∀ custom, answer = some custom → AllRules custom.rules

/-- `b` has every action and rule of `a`; a failing query has none. -/
def AnswerLe (a b : Option Assignment) : Prop :=
  ∀ c, a = some c → ∃ d, b = some d ∧ c.actions ⊆ d.actions ∧ c.rules ⊆ d.rules

/-- The actions of an answer. -/
def answerActions (answer : Option Assignment) : Set Str := {a | ∃ custom, answer = some custom ∧ a ∈ custom.actions}

def answerRules (answer : Option Assignment) : Set PermissionRule :=
  {r | ∃ custom, answer = some custom ∧ r ∈ ruleSet custom.rules}

theorem AnswerLe.actions {a b : Option Assignment} (h : AnswerLe a b) : answerActions a ⊆ answerActions b := by
  rintro action ⟨c, hc, haction⟩
  obtain ⟨d, hd, hsub, -⟩ := h c hc
  exact ⟨d, hd, hsub haction⟩

theorem AnswerLe.rules {a b : Option Assignment} (h : AnswerLe a b) : answerRules a ⊆ answerRules b := by
  rintro r ⟨c, hc, s, hs, hr⟩
  obtain ⟨d, hd, -, hsub⟩ := h c hc
  exact ⟨d, hd, s, hsub hs, hr⟩

namespace AccessControlPolicyManager

variable (m : AccessControlPolicyManager)

/-- The rules the file and an answer grant a user. -/
def grantedFrom (user : User) (answer : Option Assignment) : Set PermissionRule :=
  m.policyGrants user ∪ (expand m.legacyPermissionMap.bundle (answerActions answer) ∪ answerRules answer)

variable {m}

theorem grantedFrom_mono {user : User} {a b : Option Assignment} (h : AnswerLe a b) :
    m.grantedFrom user a ⊆ m.grantedFrom user b := by
  apply Set.union_subset_union_right
  apply Set.union_subset_union
  · exact expand_mono h.actions
  · exact h.rules

theorem customFrom_ok {answer : Option Assignment} (h : ValidAnswer answer) :
    ∃ custom, m.customFrom answer = .ok custom ∧ AllRules custom.rules ∧
      ruleSet custom.rules = expand m.legacyPermissionMap.bundle (answerActions answer) ∪ answerRules answer ∧
      ∀ a, a ∈ custom.actions ↔ a ∈ answerActions answer := by
  cases answer with
  | none =>
    refine ⟨⟨[], [], []⟩, rfl, by simp [AllRules], ?_, by simp [answerActions]⟩
    ext r
    simp [ruleSet, answerActions, answerRules, expand]
  | some custom =>
    obtain ⟨out, hout, hnormal, hset⟩ := legacyActionsToRules_ok custom.actions m.legacyPermissionMap
    have hactions : answerActions (some custom) = {a | a ∈ custom.actions} := by
      ext a
      simp [answerActions]
    have hrules : answerRules (some custom) = ruleSet custom.rules := by
      ext r
      simp [answerRules]
    refine ⟨⟨custom.roles, custom.actions, out ++ custom.rules⟩, by simp [customFrom, hout], ?_, ?_, ?_⟩
    · exact (AllRules.of_normal hnormal).append (h custom rfl)
    · rw [ruleSet_append, hset, hactions, hrules]
    · intro a
      rw [hactions]
      rfl

theorem sourcesFrom_ok (user : User) {answer : Option Assignment} (h : ValidAnswer answer) :
    ∃ s, m.sourcesFrom user answer = .ok s ∧ AllRules s.merged.rules ∧
      ruleSet s.merged.rules = m.grantedFrom user answer ∧
      ∀ a, a ∈ s.merged.actions ↔ a ∈ (m.filePolicy.rolesActions user).2 ∨ a ∈ answerActions answer ∨
        a ∈ permissionLanguage.Derived m.legacyPermissionMap.bundle (m.grantedFrom user answer) := by
  obtain ⟨policyRules, hpolicy, hnormal, hpolicySet⟩ :=
    legacyActionsToRules_ok (m.filePolicy.rolesActions user).2 m.legacyPermissionMap
  obtain ⟨custom, hcustom, hvalid, hcustomSet, hactions⟩ := m.customFrom_ok h
  have hmerged : AllRules (policyRules ++ custom.rules) := (AllRules.of_normal hnormal).append hvalid
  have hset : ruleSet (policyRules ++ custom.rules) = m.grantedFrom user answer := by
    rw [ruleSet_append, hpolicySet, hcustomSet]
    rfl
  obtain ⟨derived, hderived, hmem⟩ := permissionRulesToLegacyActions_ok hmerged m.legacyPermissionMap
  have hsources : m.sourcesFrom user answer = .ok {
      policy := ⟨(m.filePolicy.rolesActions user).1, (m.filePolicy.rolesActions user).2, policyRules⟩
      custom := custom
      merged := ⟨(m.filePolicy.rolesActions user).1 ++ custom.roles,
        (m.filePolicy.rolesActions user).2 ++ custom.actions ++ derived, policyRules ++ custom.rules⟩ } := by
    simp only [sourcesFrom, hpolicy, hcustom, hderived, Except.ok_bind, Except.pure_eq_ok]
  refine ⟨_, hsources, hmerged, hset, fun a => ?_⟩
  simp only [List.mem_append, hactions, hmem, hset, or_assoc]

theorem allowedActionFrom_iff {login : Str} {groups : List Str} {answer : Option Assignment} (h : ValidAnswer answer)
    (action : Str) : m.allowedActionFrom (.authenticated login groups) answer action = .ok true ↔
      action ∈ (m.filePolicy.rolesActions (.authenticated login groups)).2 ∨ action ∈ answerActions answer ∨
        action ∈ permissionLanguage.Derived m.legacyPermissionMap.bundle
          (m.grantedFrom (.authenticated login groups) answer) := by
  obtain ⟨s, hs, -, -, hactions⟩ := m.sourcesFrom_ok (.authenticated login groups) h
  rw [← hactions]
  simp [allowedActionFrom, hs]

theorem allowedPermissionFrom_iff {login : Str} {groups : List Str} {answer : Option Assignment}
    (h : ValidAnswer answer) (resource operation scope : Str) :
    m.allowedPermissionFrom (.authenticated login groups) answer resource operation scope = .ok true ↔
      permissionLanguage.Grants (m.grantedFrom (.authenticated login groups) answer) ⟨resource, operation, scope⟩ := by
  obtain ⟨s, hs, hvalid, hset, -⟩ := m.sourcesFrom_ok (.authenticated login groups) h
  obtain ⟨b, hb, hiff⟩ := permissionRulesAllow_grants hvalid resource operation scope
  rw [← hset, ← hiff]
  simp [allowedPermissionFrom, hs, hb]

/-- `b` grants what `a` grants. -/
structure GrantsNoLess (m : AccessControlPolicyManager) (user : User) (a b : Option Assignment) : Prop where
  permission : ∀ resource operation scope, m.allowedPermissionFrom user a resource operation scope = .ok true →
    m.allowedPermissionFrom user b resource operation scope = .ok true
  action : ∀ action, m.allowedActionFrom user a action = .ok true → m.allowedActionFrom user b action = .ok true

theorem grantsNoLess_of_le {user : User} {a b : Option Assignment} (ha : ValidAnswer a) (hb : ValidAnswer b)
    (h : AnswerLe a b) : m.GrantsNoLess user a b := by
  have hgranted : m.grantedFrom user a ⊆ m.grantedFrom user b := grantedFrom_mono h
  cases user with
  | anonymous => exact ⟨fun _ _ _ h => h, fun _ h => h⟩
  | authenticated login groups =>
    constructor
    · intro resource operation scope hallowed
      rw [allowedPermissionFrom_iff ha] at hallowed
      rw [allowedPermissionFrom_iff hb]
      exact hallowed.mono hgranted
    · intro action hallowed
      rw [allowedActionFrom_iff ha] at hallowed
      rw [allowedActionFrom_iff hb]
      rcases hallowed with hfile | hcustom | hderived
      · exact .inl hfile
      · exact .inr (.inl (h.actions hcustom))
      · exact .inr (.inr (Derived.mono hgranted hderived))

/-- **Rights grow with roles.** With access control the manager decides with the answer of
`user_permissions`, and what it grants with an answer it grants with every answer that has the first's
actions and rules; what it grants when the query raises it grants with every answer. -/
theorem rights_grow {m : AccessControlPolicyManager} (h : m.accessControlAvailable = true) (user : User) :
    (∀ resource operation scope, m.allowedUserPermission user resource operation scope =
      m.allowedPermissionFrom user (m.customPermissions user) resource operation scope) ∧
    (∀ action, m.allowedUserAction user action = m.allowedActionFrom user (m.customPermissions user) action) ∧
    (∀ c d : Assignment, AllRules c.rules → AllRules d.rules → c.actions ⊆ d.actions → c.rules ⊆ d.rules →
      m.GrantsNoLess user (some c) (some d)) ∧
    ∀ d : Assignment, AllRules d.rules → m.GrantsNoLess user none (some d) := by
  have hsome : ∀ {c : Assignment}, AllRules c.rules → ValidAnswer (some c) := by
    rintro c hc _ ⟨⟩
    exact hc
  refine ⟨allowedUserPermission_eq h user, allowedUserAction_eq user, ?_, ?_⟩
  · intro c d hc hd hactions hrules
    apply grantsNoLess_of_le (hsome hc) (hsome hd)
    rintro _ ⟨⟩
    exact ⟨d, rfl, hactions, hrules⟩
  · intro d hd
    exact grantsNoLess_of_le nofun (hsome hd) nofun

/-- A store whose query raises. -/
def storeDown : AccessControlPolicyManager where
  filePolicy :=
    { rolesActions := fun _ => ([], ["view-jobs"]), allowedAnonymousAction := fun _ => false, definitionActions := [] }
  accessControlEnabled := true
  accessControlStore := some ⟨defaultLegacyMap, fun _ => none⟩
  legacyPermissionMap := defaultLegacyMap

/-- A role that views jobs, and one that edits them too. -/
def viewer : Assignment := ⟨["viewer".toList], [], ["jobs:view:*".toList]⟩
def editor : Assignment := ⟨["editor".toList], ["edit-jobs".toList], ["jobs:view:*".toList, "jobs:edit:self".toList]⟩

theorem rights_grow_storeDown : storeDown.GrantsNoLess (.authenticated "ada".toList []) (some viewer) (some editor) ∧
    storeDown.GrantsNoLess (.authenticated "ada".toList []) none (some editor) := by
  have hview : IsRule "jobs:view:*".toList := ⟨_, rfl⟩
  have hedit : IsRule "jobs:edit:self".toList := ⟨_, rfl⟩
  have hviewer : AllRules viewer.rules := by
    rintro _ (_ | ⟨_, ⟨⟩⟩)
    exact hview
  have heditor : AllRules editor.rules := by
    rintro _ (_ | ⟨_, _ | ⟨_, ⟨⟩⟩⟩)
    · exact hview
    · exact hedit
  have hgrow := rights_grow (show storeDown.accessControlAvailable = true from rfl) (.authenticated "ada".toList [])
  exact ⟨hgrow.2.2.1 viewer editor hviewer heditor (List.nil_subset _) (by simp [viewer, editor]),
    hgrow.2.2.2 editor heditor⟩

end AccessControlPolicyManager

end SlurmWeb
