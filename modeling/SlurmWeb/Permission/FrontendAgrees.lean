import SlurmWeb.Permission.Frontend

/-!
# Frontend and backend on one user

What the browser makes of the payload of a user is compared with `allowed_user_permission`. The
two differ for three reasons: the frontend expands the actions that the rules only derive; it
does not strip the texts of stored rules; and its records answer for the members of
`Object.prototype`.

* `routeShown_iff`, `routeShown_inherited_iff` — what the frontend grants.
* `frontend_agrees_iff` — frontend and backend agree exactly when the user's rules are
  `ReadAlike`.
-/

namespace SlurmWeb

open Strings RuleLanguage JsRecord

/-! ## What the frontend is told -/

/-- Sorting normal rules keeps their texts. -/
theorem mem_sortPermissionRules {rules out : List Str} (hn : ∀ s ∈ rules, IsNormalRule s)
    (h : sortPermissionRules rules = .ok out) {s : Str} : s ∈ out ↔ s ∈ rules := by
  obtain ⟨rs, hrs, hout⟩ := Except.bind_eq_ok.1 h
  rw [← Except.ok.inj hout, mem_sortedSet, List.mem_map]
  constructor
  · rintro ⟨r, hr, rfl⟩
    obtain ⟨t, ht, htr⟩ := (mem_of_mapM_normalize hrs r).1 hr
    obtain ⟨r', rfl⟩ := hn t ht
    rw [normalize_text, Except.ok.injEq] at htr
    rwa [← htr]
  · intro hs
    obtain ⟨r, rfl⟩ := hn s hs
    exact ⟨r, (mem_of_mapM_normalize hrs r).2 ⟨r.text, hs, normalize_text r⟩, rfl⟩

section Sources

variable {m : AccessControlPolicyManager} {user : User} {src : AccessControlPolicyManager.Sources}

/-- Over a loaded map the agent sends the user's texts as they are. -/
theorem mem_merged_rules (hn : m.legacyPermissionMap.Normal) (h : m.rolesActionsSources user = .ok src) {rule : Str} :
    rule ∈ src.merged.rules ↔ rule ∈ m.grantedRules user := by
  obtain ⟨policyRules, hp, h⟩ := Except.bind_eq_ok.1 h
  obtain ⟨custom, hc, h⟩ := Except.bind_eq_ok.1 h
  obtain ⟨derived, -, h⟩ := Except.bind_eq_ok.1 h
  cases h
  have hpolicy := mem_sortPermissionRules (mappedRules_normal hn _) hp (s := rule)
  unfold AccessControlPolicyManager.customRolesActionsRules at hc
  unfold AccessControlPolicyManager.grantedRules
  rw [List.mem_append, List.mem_append, hpolicy]
  cases hcp : m.customPermissions user with
  | none =>
    rw [hcp] at hc
    cases hc
    rfl
  | some c =>
    rw [hcp] at hc
    obtain ⟨customRules, hcr, hc⟩ := Except.bind_eq_ok.1 hc
    cases hc
    rw [List.mem_append, List.mem_append, mem_sortPermissionRules (mappedRules_normal hn _) hcr]

theorem sources_actions (h : m.rolesActionsSources user = .ok src) :
    src.policy.actions ⊆ src.merged.actions ∧ src.custom.actions ⊆ src.merged.actions := by
  obtain ⟨policyRules, -, h⟩ := Except.bind_eq_ok.1 h
  obtain ⟨custom, -, h⟩ := Except.bind_eq_ok.1 h
  obtain ⟨derived, -, h⟩ := Except.bind_eq_ok.1 h
  cases h
  exact ⟨fun a ha => List.mem_append_left _ (List.mem_append_left _ ha),
    fun a ha => List.mem_append_left _ (List.mem_append_right _ ha)⟩

end Sources

/-- `_sorted_strings` drops empty strings only. -/
theorem mem_sortedStrings {texts : List Str} {text : Str} : text ∈ sortedStrings texts.dedup ↔
    text ∈ texts ∧ text ≠ [] := by
  simp [sortedStrings]

/-! ## The normalised payload -/

/-- The texts the browser goes through: those of the payload, and those its table has for the actions. -/
def relayedRules (src : AccessControlPolicyManager.Sources) : List Str :=
  (sortedAssignment src.merged).rules ++ mappedRules (sortedAssignment src.merged).actions LEGACY_PERMISSION_RULES

/-- The assignment whose actions the browser expands without an exception, normalised. -/
def Assignment.normalized (assignment : Assignment) : Assignment where
  roles := assignment.roles
  actions := assignment.actions
  rules := sort ((assignment.rules ++ mappedRules assignment.actions LEGACY_PERMISSION_RULES).dedup.map normalizeRule)

theorem normalizeAssignment_ok {assignment : Assignment} (h : ∀ a ∈ assignment.actions, a ∉ prototypeNames) :
    normalizeClusterPermissionAssignment (some assignment) = .ok assignment.normalized := by
  have hlegacy := legacyRules_eq_ok.2 ⟨h, rfl⟩
  simp only [normalizeClusterPermissionAssignment, Option.map_some, Option.getD_some, hlegacy]
  rfl

/-- What the payload is normalised to. -/
def normalizedPayload (src : AccessControlPolicyManager.Sources) : ClusterPermissions where
  roles := (sortedAssignment src.merged).normalized.roles
  actions := (sortedAssignment src.merged).normalized.actions
  rules := (sortedAssignment src.merged).normalized.rules
  sources := some ⟨some (sortedAssignment src.policy).normalized, some (sortedAssignment src.custom).normalized,
    some (sortedAssignment src.merged).normalized⟩

theorem sortedAssignment_actions {src : AccessControlPolicyManager.Sources}
    (h : ∀ a ∈ src.merged.actions, a ∉ prototypeNames)
    {assignment : Assignment} (hsub : assignment.actions ⊆ src.merged.actions) :
    ∀ a ∈ (sortedAssignment assignment).actions, a ∉ prototypeNames :=
  fun a ha => h a (hsub (mem_sortedStrings.1 ha).1)

theorem normalizePayload_ok {src : AccessControlPolicyManager.Sources}
    (hpolicy : src.policy.actions ⊆ src.merged.actions)
    (hcustom : src.custom.actions ⊆ src.merged.actions) (h : ∀ a ∈ src.merged.actions, a ∉ prototypeNames) :
    normalizeClusterPermissions (payloadOf src) = .ok (normalizedPayload src) := by
  have hmerged := normalizeAssignment_ok (sortedAssignment_actions h (List.Subset.refl _))
  have hpolicy := normalizeAssignment_ok (sortedAssignment_actions h hpolicy)
  have hcustom := normalizeAssignment_ok (sortedAssignment_actions h hcustom)
  change (normalizeClusterPermissionAssignment (some (sortedAssignment src.merged)) >>= fun merged =>
    normalizeClusterPermissionAssignment (some (sortedAssignment src.policy)) >>= fun policy =>
    normalizeClusterPermissionAssignment (some (sortedAssignment src.custom)) >>= fun custom => _) = _
  rw [hmerged, Except.ok_bind, hpolicy, Except.ok_bind, hcustom, Except.ok_bind]
  rfl

/-- On either branch of `rules.size === 0` the browser goes through all the texts. -/
theorem routeRules_normalized {src : AccessControlPolicyManager.Sources}
    (h : ∀ a ∈ src.merged.actions, a ∉ prototypeNames) :
    routeRules (normalizedPayload src) = .ok (sort ((relayedRules src).dedup.map normalizeRule)) := by
  have hmerged : (normalizedPayload src).mergedRules = sort ((relayedRules src).dedup.map normalizeRule) := rfl
  unfold routeRules
  rw [hmerged]
  split
  · rename_i hempty
    -- without rules there are none of the actions either
    have hnil : relayedRules src = [] := by
      refine List.eq_nil_iff_forall_not_mem.2 fun t ht => ?_
      have hmem : normalizeRule t ∈ sort ((relayedRules src).dedup.map normalizeRule) :=
        mem_sort.2 (List.mem_map_of_mem (List.mem_dedup.2 ht))
      rw [hempty] at hmem
      cases hmem
    rw [hempty]
    exact legacyRules_eq_ok.2 ⟨sortedAssignment_actions h (List.Subset.refl _), (List.append_eq_nil_iff.1 hnil).2.symm⟩
  · rfl

theorem normalizePayload_raises {src : AccessControlPolicyManager.Sources} {a : Str} (ha : a ∈ src.merged.actions)
    (hname : a ∈ prototypeNames) (p : ClusterPermissions) : ¬ normalizeClusterPermissions (payloadOf src) = .ok p := by
  intro h
  obtain ⟨merged, hmerged, -⟩ := Except.bind_eq_ok.1 h
  obtain ⟨rules, hrules, -⟩ := Except.bind_eq_ok.1 hmerged
  have hmem : a ∈ sortedStrings src.merged.actions.dedup :=
    mem_sortedStrings.2 ⟨ha, (prototypeNames_spec a hname).2.2.2⟩
  exact (legacyRules_eq_ok.1 hrules).1 a hmem hname

/-! ## The frontend's table -/

theorem legacy_entries_perm : List.Forall₂ (fun e e' => e.1 = e'.1 ∧ e.2.Perm e'.2)
    LEGACY_PERMISSION_RULES.entries defaultLegacyRules.entries := by
  decide

/-- The frontend's table and the loaded map list the same rules for an action. -/
theorem mem_legacyRules_iff {actions : List Str} {rule : Str} :
    rule ∈ mappedRules actions LEGACY_PERMISSION_RULES ↔ rule ∈ mappedRules actions defaultLegacyMap.rules := by
  have hperm : ∀ a, ((LEGACY_PERMISSION_RULES.get a).getD []).Perm ((defaultLegacyMap.rules.get a).getD []) := by
    intro a
    have hrel : Option.Rel List.Perm (LEGACY_PERMISSION_RULES.get a) (defaultLegacyMap.rules.get a) :=
      Dict.lookup_forall₂ legacy_entries_perm a
    generalize LEGACY_PERMISSION_RULES.get a = x at hrel ⊢
    generalize defaultLegacyMap.rules.get a = y at hrel ⊢
    cases hrel with
    | none => rfl
    | some h => exact h
  simp only [mappedRules, List.mem_flatMap, (hperm _).mem_iff]

/-- The texts of the default map are plain, and none is for everything below a resource. -/
theorem default_entries_plain : ∀ e ∈ defaultLegacyRules.entries, ∀ rule ∈ e.2,
    (leadingBlank rule || trailingBlank rule || decide (resourcePart rule ∈ prototypeNames) ||
      "/*".toList.isSuffixOf (resourcePart rule)) = false := by
  decide

theorem default_plain {action rule : Str} (h : rule ∈ (defaultLegacyMap.rules.get action).getD []) :
    Plain rule ∧ ¬ "/*".toList.isSuffixOf (resourcePart rule) = true := by
  cases ha : defaultLegacyMap.rules.get action with
  | none => rw [ha] at h; cases h
  | some rules =>
    rw [ha] at h
    have hspec := default_entries_plain (action, rules) (Dict.mem_entries_iff.2 ha) rule h
    simp only [Bool.or_eq_false_iff, decide_eq_false_iff_not] at hspec
    exact ⟨⟨hspec.1.1.1, hspec.1.1.2, hspec.1.2⟩, by rw [hspec.2]; exact Bool.false_ne_true⟩

/-- The actions that a user's rules derive. -/
def AccessControlPolicyManager.derivedActions (m : AccessControlPolicyManager) (user : User) : Set Str :=
  permissionLanguage.Derived defaultLegacyMap.bundle (m.granted user)

theorem mem_mappedRules {M : LegacyMap} {actions : List Str} {rule : Str} :
    rule ∈ mappedRules actions M.rules ↔ ∃ a ∈ actions, rule ∈ (M.rules.get a).getD [] := List.mem_flatMap

section Default

variable {m : AccessControlPolicyManager} {user : User} {src : AccessControlPolicyManager.Sources}

theorem mem_merged_actions (hmap : m.legacyPermissionMap = defaultLegacyMap)
    (h : m.rolesActionsSources user = .ok src) {a : Str} :
    a ∈ src.merged.actions ↔ a ∈ (m.filePolicy.rolesActions user).2 ++ m.customActions user ∨
      a ∈ m.derivedActions user := by
  obtain ⟨src', hsrc', -, -, hact⟩ := m.rolesActionsSources_ok user
  rw [h, Except.ok.injEq] at hsrc'
  rw [hsrc', hact a, hmap, List.mem_append, or_assoc]
  rfl

/-- **What the browser goes through**: the user's texts and those of the derived actions. -/
theorem mem_relayedRules (hmap : m.legacyPermissionMap = defaultLegacyMap) (h : m.rolesActionsSources user = .ok src)
    {rule : Str} : rule ∈ relayedRules src ↔ rule ∈ m.grantedRules user ∨
      ∃ a ∈ m.derivedActions user, rule ∈ (defaultLegacyMap.rules.get a).getD [] := by
  have hnormal : m.legacyPermissionMap.Normal := hmap ▸ defaultLegacyMap_normal
  have hvalid : AllRules (m.grantedRules user) := (m.grantedRules_spec user).1
  have hempty : defaultLegacyMap.rules.get [] = none := by decide
  simp only [relayedRules, sortedAssignment, List.mem_append, mem_legacyRules_iff, mem_mappedRules, mem_sortedStrings,
    mem_merged_rules hnormal h, mem_merged_actions hmap h]
  constructor
  · rintro (⟨hrule, -⟩ | ⟨a, ⟨ha | ha, -⟩, hrule⟩)
    · exact .inl hrule
    · -- the actions a user holds are expanded by the backend too
      left
      unfold AccessControlPolicyManager.grantedRules
      rw [hmap]
      rcases ha with ha | ha
      · exact List.mem_append_left _ (mem_mappedRules.2 ⟨a, ha, hrule⟩)
      · unfold AccessControlPolicyManager.customActions at ha
        cases hcp : m.customPermissions user with
        | none => rw [hcp] at ha; cases ha
        | some custom =>
          rw [hcp] at ha
          exact List.mem_append_right _ (List.mem_append_left _ (mem_mappedRules.2 ⟨a, ha, hrule⟩))
    · exact .inr ⟨a, ha, hrule⟩
  · rintro (hrule | ⟨a, ha, hrule⟩)
    · refine .inl ⟨hrule, ?_⟩
      rintro rfl
      obtain ⟨r, hr⟩ := hvalid [] hrule
      have hraises : (normalizePermissionRule []).isOk = false := by decide
      rw [hr] at hraises
      cases hraises
    · refine .inr ⟨a, ⟨.inr ha, ?_⟩, hrule⟩
      rintro rfl
      rw [hempty] at hrule
      cases hrule

end Default

/-! ## What the frontend grants -/

/-- What `hasRoutePermission` answers in the browser of a user: where an exception ends the login or the
check, not `true`. -/
def routeShown (m : AccessControlPolicyManager) (user : User) (q : Request) : Bool :=
  match permissionPayload m user with
  | .error _ => false
  | .ok payload =>
    match normalizeClusterPermissions payload >>= (hasRoutePermission · q.resource q.operation q.scope) with
    | .ok shown => shown
    | .error _ => false

/-- The requests the frontend makes: a resource that is no alias, a concrete operation. -/
def routeRequests : Set Request :=
  {q | canonicalResource q.resource = q.resource ∧ q.operation ∈ ["view".toList, "edit", "delete"] ∧
    q.scope ∈ ["*".toList, "self"]}

/-- The rules both sides read: those of a user's plain texts and those of the derived actions. -/
def AccessControlPolicyManager.sharedRules (m : AccessControlPolicyManager) (user : User) : Set PermissionRule :=
  {r | ∃ rule ∈ m.grantedRules user, Plain rule ∧ normalizePermissionRule rule = .ok r} ∪
    expand defaultLegacyMap.bundle (m.derivedActions user)

/-- The frontend reads another resource: it keeps the blank before it, or the record inherits its name. -/
def Misread (rule : Str) : Prop :=
  trailingBlank rule = false ∧ (leadingBlank rule = true ∨ resourcePart rule ∈ prototypeNames)

theorem plain_or_misread (rule : Str) : Plain rule ∨ trailingBlank rule = true ∨ Misread rule := by
  unfold Plain Misread
  cases leadingBlank rule <;> cases trailingBlank rule <;> by_cases h : resourcePart rule ∈ prototypeNames <;> simp [h]

theorem Misread.not_plain {rule : Str} (h : Misread rule) : ¬ Plain rule := by
  rintro ⟨hlead, -, hname⟩
  rcases h.2 with h | h
  · rw [hlead] at h
    cases h
  · exact hname h

section Shown

variable {m : AccessControlPolicyManager} {user : User} {src : AccessControlPolicyManager.Sources}

theorem mem_sharedRules (hmap : m.legacyPermissionMap = defaultLegacyMap) (h : m.rolesActionsSources user = .ok src)
    {r : PermissionRule} :
    r ∈ m.sharedRules user ↔ ∃ rule ∈ relayedRules src, Plain rule ∧ normalizePermissionRule rule = .ok r := by
  simp only [mem_relayedRules hmap h]
  constructor
  · rintro (⟨rule, hrule, hplain, hr⟩ | ⟨a, ha, rule, hrule, hr⟩)
    · exact ⟨rule, .inl hrule, hplain, hr⟩
    · exact ⟨rule, .inr ⟨a, ha, hrule⟩, (default_plain hrule).1, hr⟩
  · rintro ⟨rule, hrule | ⟨a, ha, hrule⟩, hplain, hr⟩
    · exact .inl ⟨rule, hrule, hplain, hr⟩
    · exact .inr ⟨a, ha, rule, hrule, hr⟩

theorem sharedRules_resource {r : PermissionRule} (hmap : m.legacyPermissionMap = defaultLegacyMap)
    (h : m.rolesActionsSources user = .ok src) (hr : r ∈ m.sharedRules user) : r.resource ∉ prototypeNames := by
  obtain ⟨rule, -, hplain, hr⟩ := (mem_sharedRules hmap h).1 hr
  exact (relayed_plain hr hplain).2.2

theorem relayedRules_valid (hmap : m.legacyPermissionMap = defaultLegacyMap)
    (h : m.rolesActionsSources user = .ok src) : AllRules (relayedRules src) := by
  intro rule hrule
  rcases (mem_relayedRules hmap h).1 hrule with hrule | ⟨a, -, hrule⟩
  · exact (m.grantedRules_spec user).1 rule hrule
  · exact defaultLegacyMap.getD_valid a rule hrule

theorem routeShown_eq (h : m.rolesActionsSources user = .ok src)
    (hactions : ∀ a ∈ src.merged.actions, a ∉ prototypeNames) (q : Request) : routeShown m user q = true ↔
      someRuleAllows q.resource q.operation q.scope (sort ((relayedRules src).dedup.map normalizeRule)) = .ok true := by
  obtain ⟨hpolicy, hcustom⟩ := sources_actions h
  have hpayload : permissionPayload m user = .ok (payloadOf src) := by simp [permissionPayload, h]
  have hroute : (normalizeClusterPermissions (payloadOf src) >>=
      (hasRoutePermission · q.resource q.operation q.scope)) =
      someRuleAllows q.resource q.operation q.scope (sort ((relayedRules src).dedup.map normalizeRule)) := by
    rw [normalizePayload_ok hpolicy hcustom hactions, Except.ok_bind, hasRoutePermission,
      routeRules_normalized hactions, Except.ok_bind]
  unfold routeShown
  rw [hpayload]
  simp only [hroute]
  cases someRuleAllows q.resource q.operation q.scope (sort ((relayedRules src).dedup.map normalizeRule)) <;> simp

/-- With an action that is named like a member nothing is shown. -/
theorem routeShown_raises (h : m.rolesActionsSources user = .ok src) {a : Str} (ha : a ∈ src.merged.actions)
    (hname : a ∈ prototypeNames) (q : Request) : routeShown m user q = false := by
  have hpayload : permissionPayload m user = .ok (payloadOf src) := by simp [permissionPayload, h]
  unfold routeShown
  rw [hpayload]
  cases hn : normalizeClusterPermissions (payloadOf src) with
  | error e =>
    simp only [hn]
    rfl
  | ok p => exact absurd hn (normalizePayload_raises ha hname p)

/-- **What the frontend grants** of a resource it reads as it is written. -/
theorem routeShown_iff (hmap : m.legacyPermissionMap = defaultLegacyMap) (h : m.rolesActionsSources user = .ok src)
    (hactions : ∀ a ∈ src.merged.actions, a ∉ prototypeNames) {q : Request} (hq : q ∈ routeRequests)
    (hname : q.resource ∉ prototypeNames) : routeShown m user q = true ↔
      permissionLanguage.Grants (m.sharedRules user) q ∨
      ∃ rule ∈ m.grantedRules user, Misread rule ∧ ∃ r, normalizePermissionRule rule = .ok r ∧
        resourceMatches (relayedResource rule) q.resource = true ∧ r.admits q.operation q.scope = true := by
  rw [routeShown_eq h hactions, someRuleAllows_text_iff (relayedRules_valid hmap h) hname hq.1 hq.2.2]
  constructor
  · rintro ⟨rule, hrule, r, hr, htrail, hmatch, hadmit⟩
    rcases plain_or_misread rule with hplain | htrail' | hmis
    · refine .inl ⟨r, (mem_sharedRules hmap h).2 ⟨rule, hrule, hplain, hr⟩, ?_⟩
      rw [(relayed_plain hr hplain).1] at hmatch
      change r.allows _ _ _ = true
      rw [r.allows_eq, hmatch, hadmit]
      rfl
    · rw [htrail] at htrail'
      cases htrail'
    · rcases (mem_relayedRules hmap h).1 hrule with hrule | ⟨a, -, hrule⟩
      · exact .inr ⟨rule, hrule, hmis, r, hr, hmatch, hadmit⟩
      · exact absurd (default_plain hrule).1 hmis.not_plain
  · rintro (⟨r, hr, hallow⟩ | ⟨rule, hrule, hmis, r, hr, hmatch, hadmit⟩)
    · obtain ⟨rule, hrule, hplain, hr⟩ := (mem_sharedRules hmap h).1 hr
      change r.allows _ _ _ = true at hallow
      rw [r.allows_eq, Bool.and_eq_true] at hallow
      exact ⟨rule, hrule, r, hr, hplain.2.1, (relayed_plain hr hplain).1 ▸ hallow.1, hallow.2⟩
    · exact ⟨rule, (mem_relayedRules hmap h).2 (.inl hrule), r, hr, hmis.1, hmatch, hadmit⟩

/-- **What it grants of the name of a member**: a rule for every resource comes before those that raise. -/
theorem routeShown_inherited_iff (hmap : m.legacyPermissionMap = defaultLegacyMap)
    (h : m.rolesActionsSources user = .ok src)
    (hactions : ∀ a ∈ src.merged.actions, a ∉ prototypeNames) {q : Request} (hq : q ∈ routeRequests)
    (hname : q.resource ∈ prototypeNames) : routeShown m user q = true ↔ ∃ r ∈ m.sharedRules user,
      r.resource = "*".toList ∧ r.admits q.operation q.scope = true ∧ ∀ other ∈ m.grantedRules user,
        "/*".toList.isSuffixOf (resourcePart other) = true → codeUnits r.text < codeUnits other := by
  rw [routeShown_eq h hactions, someRuleAllows_inherited_iff (relayedRules_valid hmap h) hname hq.2.2]
  constructor
  · rintro ⟨rule, hrule, r, hr, hplain, hresource, hadmit, hlow⟩
    exact ⟨r, (mem_sharedRules hmap h).2 ⟨rule, hrule, hplain, hr⟩, hresource, hadmit,
      fun other hother => hlow other ((mem_relayedRules hmap h).2 (.inl hother))⟩
  · rintro ⟨r, hr, hresource, hadmit, hlow⟩
    obtain ⟨rule, hrule, hplain, hr⟩ := (mem_sharedRules hmap h).1 hr
    refine ⟨rule, hrule, r, hr, hplain, hresource, hadmit, fun other hother hslash => ?_⟩
    rcases (mem_relayedRules hmap h).1 hother with hother | ⟨a, -, hother⟩
    · exact hlow other hother hslash
    · exact absurd hslash (default_plain hother).2

end Shown

/-! ## Rules for a resource -/

/-- Who is granted an operation on a resource is granted it on all that this resource stands for. -/
theorem grants_resource {P : Set PermissionRule} {granted requested operation scope : Str}
    (h : permissionLanguage.Grants P ⟨granted, operation, scope⟩) (hmatch : resourceMatches granted requested = true) :
    permissionLanguage.Grants P ⟨requested, operation, scope⟩ := by
  obtain ⟨r, hr, hallow⟩ := h
  change r.allows _ _ _ = true at hallow
  rw [r.allows_eq, Bool.and_eq_true] at hallow
  refine ⟨r, hr, ?_⟩
  change r.allows _ _ _ = true
  rw [r.allows_eq, resourceMatches_trans hallow.1 hmatch, hallow.2]
  rfl

theorem resourceMatches_star (requested : Str) : resourceMatches "*" requested = true :=
  resourceMatches_iff.2 (.inl rfl)

/-- A rule that stands for `*`, or for a text without a slash, has this resource or `*`. -/
theorem resourceMatches_flat {granted requested : Str} (hslash : '/' ∉ requested)
    (h : resourceMatches granted requested = true) : granted = "*".toList ∨ granted = requested := by
  rcases resourceMatches_iff.1 h with h | h | ⟨p, -, hp⟩
  · exact .inl h
  · exact .inr h
  · exact absurd (hp.subset (List.mem_append_right p (by decide))) hslash

theorem grants_star {P : Set PermissionRule} {operation scope : Str}
    (h : permissionLanguage.Grants P ⟨"*", operation, scope⟩) :
    ∃ r ∈ P, r.resource = "*".toList ∧ r.admits operation scope = true := by
  obtain ⟨r, hr, hallow⟩ := h
  change r.allows _ _ _ = true at hallow
  rw [r.allows_eq, Bool.and_eq_true] at hallow
  have hslash : '/' ∉ "*".toList := by decide
  exact ⟨r, hr, (resourceMatches_flat hslash hallow.1).elim id id, hallow.2⟩

theorem grants_of_admits {P : Set PermissionRule} {r : PermissionRule} (hr : r ∈ P) {operation scope : Str}
    (h : r.admits operation scope = true) : permissionLanguage.Grants P ⟨r.resource, operation, scope⟩ := by
  refine ⟨r, hr, ?_⟩
  change r.allows _ _ _ = true
  rw [r.allows_eq, h, resourceMatches_iff.2 (.inr (.inl rfl))]
  rfl

/-- No rule names a resource that starts with a blank: one that matches it is for every resource. -/
theorem resourceMatches_blank (r : PermissionRule) {requested : Str} (hblank : requested.head?.any isSpace = true)
    (h : resourceMatches r.resource requested = true) : r.resource = "*".toList := by
  obtain ⟨b, bs, rfl⟩ : ∃ b bs, requested = b :: bs := by
    cases requested with
    | nil => cases hblank
    | cons b bs => exact ⟨b, bs, rfl⟩
  have hb : isSpace b = true := hblank
  rcases resourceMatches_iff.1 h with h | h | ⟨p, hres, hp⟩
  · exact h
  · have := r.resource_head b (by rw [h]; rfl)
    rw [hb] at this
    cases this
  · cases p with
    | nil =>
      obtain ⟨t, ht⟩ := hp
      cases ht
      exact absurd hb (by decide)
    | cons c cs =>
      obtain ⟨t, ht⟩ := hp
      cases ht
      have := r.resource_head b (by rw [hres]; rfl)
      rw [hb] at this
      cases this

/-! ## Agreement -/

/-- The user's rules are read alike, as far as it matters. -/
structure ReadAlike (m : AccessControlPolicyManager) (user : User) : Prop where
  /-- The browser expands all actions the user holds. -/
  actions : ∀ a ∈ (m.filePolicy.rolesActions user).2 ++ m.customActions user, a ∉ prototypeNames
  /-- An action that is derived is covered as a whole. -/
  covered : ActionsCovered defaultLegacyMap (m.grantedRules user)
  /-- What the frontend does not read, as a blank stands behind the scope, the shared rules grant too. -/
  unread : ∀ rule ∈ m.grantedRules user, trailingBlank rule = true → ∀ r, normalizePermissionRule rule = .ok r →
    ∀ operation ∈ ["view".toList, "edit", "delete"], ∀ scope ∈ ["*".toList, "self"], r.admits operation scope = true →
      permissionLanguage.Grants (m.sharedRules user) ⟨r.resource, operation, scope⟩
  /-- What it misreads they grant for every resource. -/
  misread : ∀ rule ∈ m.grantedRules user, Misread rule → ∀ r, normalizePermissionRule rule = .ok r →
    ∀ operation ∈ ["view".toList, "edit", "delete"], ∀ scope ∈ ["*".toList, "self"], r.admits operation scope = true →
      permissionLanguage.Grants (m.sharedRules user) ⟨"*", operation, scope⟩
  /-- What they grant for every resource, a rule sorted before all those for everything below a resource grants. -/
  first : ∀ operation ∈ ["view".toList, "edit", "delete"], ∀ scope ∈ ["*".toList, "self"],
    permissionLanguage.Grants (m.sharedRules user) ⟨"*", operation, scope⟩ → ∃ r ∈ m.sharedRules user,
      r.resource = "*".toList ∧ r.admits operation scope = true ∧ ∀ other ∈ m.grantedRules user,
        "/*".toList.isSuffixOf (resourcePart other) = true → codeUnits r.text < codeUnits other

section Agreement

variable {m : AccessControlPolicyManager} {user : User} {src : AccessControlPolicyManager.Sources}

/-- A granted request is granted by the shared rules, or by a text that is not plain. -/
theorem granted_cases {q : Request} (h : permissionLanguage.Grants (m.granted user) q) :
    permissionLanguage.Grants (m.sharedRules user) q ∨ ∃ rule ∈ m.grantedRules user,
      (trailingBlank rule = true ∨ Misread rule) ∧ ∃ r, normalizePermissionRule rule = .ok r ∧
        resourceMatches r.resource q.resource = true ∧ r.admits q.operation q.scope = true := by
  obtain ⟨r, hr, hallow⟩ := h
  rw [← (m.grantedRules_spec user).2] at hr
  obtain ⟨rule, hrule, hr⟩ := hr
  rcases plain_or_misread rule with hplain | hodd
  · exact .inl ⟨r, .inl ⟨rule, hrule, hplain, hr⟩, hallow⟩
  · change r.allows _ _ _ = true at hallow
    rw [r.allows_eq, Bool.and_eq_true] at hallow
    exact .inr ⟨rule, hrule, hodd, r, hr, hallow⟩

theorem mem_granted {rule : Str} {r : PermissionRule} (h : rule ∈ m.grantedRules user)
    (hr : normalizePermissionRule rule = .ok r) :
    r ∈ m.granted user := (m.grantedRules_spec user).2 ▸ ⟨rule, h, hr⟩

/-- With the derived actions covered the shared rules grant nothing of their own. -/
theorem granted_of_shared (hcovered : ActionsCovered defaultLegacyMap (m.grantedRules user)) {q : Request}
    (h : permissionLanguage.Grants (m.sharedRules user) q) : permissionLanguage.Grants (m.granted user) q := by
  rcases grants_union.1 h with ⟨r, ⟨rule, hrule, -, hr⟩, hallow⟩ | h
  · exact ⟨r, mem_granted hrule hr, hallow⟩
  · rw [actionsCovered_iff (m.grantedRules_spec user).1, (m.grantedRules_spec user).2] at hcovered
    obtain ⟨a, ha, r, hr, hallow⟩ := grants_expand.1 h
    exact (hcovered a ha r hr).trans hallow

namespace ReadAlike

variable (h : ReadAlike m user)
include h

theorem grants_iff {q : Request} (hq : q ∈ routeRequests) :
    permissionLanguage.Grants (m.granted user) q ↔ permissionLanguage.Grants (m.sharedRules user) q := by
  refine ⟨fun hg => ?_, granted_of_shared h.covered⟩
  rcases granted_cases hg with hg | ⟨rule, hrule, htrail | hmis, r, hr, hmatch, hadmit⟩
  · exact hg
  · exact grants_resource (h.unread rule hrule htrail r hr q.operation hq.2.1 q.scope hq.2.2 hadmit) hmatch
  · exact grants_resource (h.misread rule hrule hmis r hr q.operation hq.2.1 q.scope hq.2.2 hadmit)
      (resourceMatches_star _)

theorem shown_iff (hmap : m.legacyPermissionMap = defaultLegacyMap) (hsrc : m.rolesActionsSources user = .ok src)
    (hactions : ∀ a ∈ src.merged.actions, a ∉ prototypeNames) {q : Request} (hq : q ∈ routeRequests) :
    routeShown m user q = true ↔ permissionLanguage.Grants (m.sharedRules user) q := by
  by_cases hname : q.resource ∈ prototypeNames
  · rw [routeShown_inherited_iff hmap hsrc hactions hq hname]
    constructor
    · rintro ⟨r, hr, hresource, hadmit, -⟩
      exact grants_resource (hresource ▸ grants_of_admits hr hadmit) (resourceMatches_star _)
    · rintro ⟨r, hr, hallow⟩
      change r.allows _ _ _ = true at hallow
      rw [r.allows_eq, Bool.and_eq_true] at hallow
      -- no shared rule has the member's name as its resource
      have hresource : r.resource = "*".toList :=
        (resourceMatches_flat (prototypeNames_spec _ hname).2.1 hallow.1).resolve_right
          fun heq => sharedRules_resource hmap hsrc hr (heq ▸ hname)
      exact h.first q.operation hq.2.1 q.scope hq.2.2 (hresource ▸ grants_of_admits hr hallow.2)
  · rw [routeShown_iff hmap hsrc hactions hq hname]
    refine or_iff_left_of_imp ?_
    rintro ⟨rule, hrule, hmis, r, hr, -, hadmit⟩
    exact grants_resource (h.misread rule hrule hmis r hr q.operation hq.2.1 q.scope hq.2.2 hadmit)
      (resourceMatches_star _)

end ReadAlike

/-- Without rules there is nothing to read. -/
theorem readAlike_of_nil (hactions : ∀ a ∈ (m.filePolicy.rolesActions user).2 ++
    m.customActions user, a ∉ prototypeNames) (hnil : m.grantedRules user = []) : ReadAlike m user where
  actions := hactions
  covered := by
    intro action required _ r _ hallow
    rw [hnil] at hallow
    cases hallow
  unread := by
    intro rule hrule
    rw [hnil] at hrule
    cases hrule
  misread := by
    intro rule hrule
    rw [hnil] at hrule
    cases hrule
  first := by
    intro operation _ scope _ hg
    obtain ⟨r, hr, hresource, hadmit⟩ := grants_star hg
    refine ⟨r, hr, hresource, hadmit, fun other hother => ?_⟩
    rw [hnil] at hother
    cases hother

theorem default_actions : ∀ name ∈ prototypeNames, defaultLegacyRules.get name = none := by decide

theorem derivedActions_not_prototype {a : Str} (ha : a ∈ m.derivedActions user) : a ∉ prototypeNames := by
  obtain ⟨r, ⟨rule, hrule, -⟩, -⟩ := ha
  intro hname
  rw [show defaultLegacyMap.rules.get a = none from default_actions a hname] at hrule
  cases hrule

/-- The requests that tell a derived action from a covered one. -/
def ownRequests : Set Request := {q | q ∈ routeRequests ∧ q.resource ∉ prototypeNames}

/-- Every entry of the default map has one rule, or only rules with a concrete operation. -/
theorem default_entries_concrete : ∀ e ∈ defaultLegacyRules.entries, e.2.length = 1 ∨
    ∀ s ∈ e.2, (normalizePermissionRule s).toOption.any (fun r => decide (r.operation ≠ .any)) = true := by
  decide

theorem default_separates : permissionLanguage.Separates defaultLegacyMap.bundle ownRequests := by
  intro a r hr
  obtain ⟨s, hs, hsr⟩ := hr
  cases ha : defaultLegacyMap.rules.get a with
  | none => rw [ha] at hs; cases hs
  | some rs =>
    have hmem : s ∈ rs := by rwa [ha] at hs
    have hb : defaultLegacyMap.bundle a = ruleSet rs := by simp [LegacyMap.bundle, ha]
    rcases default_entries_concrete (a, rs) (Dict.mem_entries_iff.2 ha) with hone | hall
    · right
      obtain ⟨t, rfl⟩ := List.length_eq_one_iff.1 hone
      rw [hb]
      rintro r' ⟨s', hs', hsr'⟩
      rw [List.mem_singleton.1 hmem] at hsr
      rw [List.mem_singleton.1 hs', hsr] at hsr'
      exact (Except.ok.inj hsr').symm
    · left
      have hop : r.operation ≠ .any := by simpa [hsr, Except.toOption] using hall s hmem
      refine ⟨⟨r.resource_canonical, ?_, ?_⟩, (relayed_plain hsr (default_plain hs).1).2.2⟩
      · change r.operation.text ∈ _
        generalize r.operation = o at hop ⊢
        cases o <;> revert hop <;> decide
      · change r.scope.text ∈ _
        cases r.scope <;> simp [Scope.text]

/-- A user whose frontend and backend agree has rules that are read alike. -/
theorem readAlike_of_agrees (hmap : m.legacyPermissionMap = defaultLegacyMap)
    (hsrc : m.rolesActionsSources user = .ok src)
    (hheld : ∀ a ∈ (m.filePolicy.rolesActions user).2 ++ m.customActions user, a ∉ prototypeNames)
    (hagree : ∀ q ∈ routeRequests, routeShown m user q = true ↔ permissionLanguage.Grants (m.granted user) q) :
    ReadAlike m user := by
  have hactions : ∀ a ∈ src.merged.actions, a ∉ prototypeNames := fun a ha =>
    ((mem_merged_actions hmap hsrc).1 ha).elim (hheld a) derivedActions_not_prototype
  have hcovered : ActionsCovered defaultLegacyMap (m.grantedRules user) := by
    rw [actionsCovered_iff (m.grantedRules_spec user).1, (m.grantedRules_spec user).2,
      ← derived_expand_iff default_separates]
    rintro q ⟨hq, hname⟩ hg
    exact (hagree q hq).1 ((routeShown_iff hmap hsrc hactions hq hname).2 (.inl (grants_union.2 (.inr hg))))
  -- what the backend grants of a member's name, the frontend only shows by a rule for every resource
  have hstar : ∀ {name operation scope : Str}, name ∈ prototypeNames → operation ∈ ["view".toList, "edit", "delete"] →
      scope ∈ ["*".toList, "self"] → permissionLanguage.Grants (m.granted user) ⟨name, operation, scope⟩ →
      ∃ r ∈ m.sharedRules user, r.resource = "*".toList ∧ r.admits operation scope = true ∧
        ∀ other ∈ m.grantedRules user,
        "/*".toList.isSuffixOf (resourcePart other) = true → codeUnits r.text < codeUnits other := by
    intro name operation scope hname hoperation hscope hg
    have hq : (⟨name, operation, scope⟩ : Request) ∈ routeRequests :=
      ⟨canonicalResource_prototype hname, hoperation, hscope⟩
    exact (routeShown_inherited_iff hmap hsrc hactions hq hname).1 ((hagree _ hq).2 hg)
  have hgrantstar : ∀ {operation scope : Str}, (∃ r ∈ m.sharedRules user, r.resource = "*".toList ∧
      r.admits operation scope = true ∧ ∀ other ∈ m.grantedRules user,
        "/*".toList.isSuffixOf (resourcePart other) = true → codeUnits r.text < codeUnits other) →
      permissionLanguage.Grants (m.sharedRules user) ⟨"*", operation, scope⟩ := by
    rintro operation scope ⟨r, hr, hresource, hadmit, -⟩
    exact hresource ▸ grants_of_admits hr hadmit
  have hmember : "constructor".toList ∈ prototypeNames := by decide
  have hmisread : ∀ rule ∈ m.grantedRules user, Misread rule → ∀ r, normalizePermissionRule rule = .ok r →
      ∀ operation ∈ ["view".toList, "edit", "delete"], ∀ scope ∈ ["*".toList, "self"], r.admits operation scope = true →
        permissionLanguage.Grants (m.sharedRules user) ⟨"*", operation, scope⟩ := by
    intro rule hrule hmis r hr operation hoperation scope hscope hadmit
    obtain ⟨lead, raw, trail, hparts⟩ := normalizePermissionRule_parts hr
    rcases hmis.2 with hblank | hname
    · obtain ⟨-, -, hnot, hcanonical⟩ := relayedResource_spec hparts
      have hq : (⟨relayedResource rule, operation, scope⟩ : Request) ∈ routeRequests := ⟨hcanonical, hoperation, hscope⟩
      have hshown := (routeShown_iff hmap hsrc hactions hq hnot).2
        (.inr ⟨rule, hrule, hmis, r, hr, resourceMatches_iff.2 (.inr (.inl rfl)), hadmit⟩)
      obtain ⟨r', hr', hallow⟩ := (hagree _ hq).1 hshown
      change r'.allows _ _ _ = true at hallow
      rw [r'.allows_eq, Bool.and_eq_true] at hallow
      have hresource := resourceMatches_blank r' (relayed_blank hr hblank).1 hallow.1
      have hall : permissionLanguage.Grants (m.granted user) ⟨"*", operation, scope⟩ :=
        hresource ▸ grants_of_admits hr' hallow.2
      exact hgrantstar (hstar hmember hoperation hscope (grants_resource hall (resourceMatches_star _)))
    · have hlead := prototype_no_blank hparts hname
      have hresource : r.resource = resourcePart rule := by
        rw [hparts.resource, hparts.resourcePart_eq, hlead, List.nil_append]
        rw [hparts.resourcePart_eq, hlead, List.nil_append] at hname
        exact canonicalResource_prototype hname
      exact hgrantstar (hstar (hresource ▸ hname) hoperation hscope (grants_of_admits (mem_granted hrule hr) hadmit))
  refine ⟨hheld, hcovered, ?_, hmisread, ?_⟩
  · intro rule hrule htrail r hr operation hoperation scope hscope hadmit
    have hg := grants_of_admits (mem_granted hrule hr) hadmit
    by_cases hname : r.resource ∈ prototypeNames
    · exact grants_resource (hgrantstar (hstar hname hoperation hscope hg)) (resourceMatches_star _)
    have hq : (⟨r.resource, operation, scope⟩ : Request) ∈ routeRequests := ⟨r.resource_canonical, hoperation, hscope⟩
    rcases (routeShown_iff hmap hsrc hactions hq hname).1 ((hagree _ hq).2 hg) with hg | ⟨rule', hrule',
        hmis, r', hr', -, hadmit'⟩
    · exact hg
    · exact grants_resource (hmisread rule' hrule' hmis r' hr' operation hoperation scope hscope hadmit')
        (resourceMatches_star _)
  · intro operation hoperation scope hscope hg
    exact hstar hmember hoperation hscope (grants_resource (granted_of_shared hcovered hg) (resourceMatches_star _))

end Agreement

/-- A rule grants one of the requests of the frontend. -/
theorem PermissionRule.exists_request (r : PermissionRule) : ∃ q ∈ routeRequests, permissionLanguage.allows r q := by
  obtain ⟨operation, hoperation, hallowed⟩ : ∃ operation ∈ ["view".toList, "edit", "delete"],
      operationAllowed r.operation operation = true := by
    cases r.operation
    · exact ⟨"view", by decide, by decide⟩
    · exact ⟨"edit", by decide, by decide⟩
    · exact ⟨"delete", by decide, by decide⟩
    · exact ⟨"view", by decide, by decide⟩
  have hscope : r.scope.text ∈ ["*".toList, "self"] := by cases r.scope <;> simp [Scope.text]
  refine ⟨⟨r.resource, operation, r.scope.text⟩, ⟨r.resource_canonical, hoperation, hscope⟩, ?_⟩
  change r.allows _ _ _ = true
  rw [r.allows_eq, admits, hallowed, resourceMatches_iff.2 (.inr (.inl rfl))]
  simp

/-- **Frontend and backend agree on every route if and only if the user has no rules or the two
read them alike.** -/
theorem frontend_agrees_iff {m : AccessControlPolicyManager} {store : AccessControlStore}
    (hs : m.availableStore = some store)
    (hmap : m.legacyPermissionMap = defaultLegacyMap) (login : Str) (groups : List Str) :
    (∀ q ∈ routeRequests, routeShown m (.authenticated login groups) q = true ↔
      m.allowedUserPermission (.authenticated login groups) q.resource q.operation q.scope = .ok true) ↔
    m.grantedRules (.authenticated login groups) = [] ∨ ReadAlike m (.authenticated login groups) := by
  have hav : m.accessControlAvailable = true := by simp [AccessControlPolicyManager.accessControlAvailable, hs]
  have hback : ∀ q : Request, m.allowedUserPermission (.authenticated login groups) q.resource
      q.operation q.scope = .ok true ↔
      permissionLanguage.Grants (m.granted (.authenticated login groups)) q := by
    intro q
    obtain ⟨b, hb, hiff⟩ := m.allowedUserPermission_available hav login groups q.resource q.operation q.scope
    rw [hb, Except.ok.injEq, hiff]
  simp only [hback]
  generalize User.authenticated login groups = user
  obtain ⟨src, hsrc, -⟩ := m.rolesActionsSources_ok user
  by_cases hheld : ∀ a ∈ (m.filePolicy.rolesActions user).2 ++ m.customActions user, a ∉ prototypeNames
  · constructor
    · intro hagree
      exact .inr (readAlike_of_agrees hmap hsrc hheld hagree)
    · intro hread q hq
      have hactions : ∀ a ∈ src.merged.actions, a ∉ prototypeNames := fun a ha =>
        ((mem_merged_actions hmap hsrc).1 ha).elim (hheld a) derivedActions_not_prototype
      have hread : ReadAlike m user := hread.elim (readAlike_of_nil hheld) id
      rw [hread.shown_iff hmap hsrc hactions hq, hread.grants_iff hq]
  · -- the login raises: nothing is shown to a user who is granted something by every rule
    obtain ⟨a, ha, hname⟩ : ∃ a ∈ (m.filePolicy.rolesActions user).2 ++ m.customActions user, a ∈ prototypeNames := by
      simpa only [not_forall, not_not, exists_prop] using hheld
    have hfalse : ∀ q, routeShown m user q = false :=
      routeShown_raises hsrc ((mem_merged_actions hmap hsrc).2 (.inl ha)) hname
    simp only [hfalse, Bool.false_eq_true, false_iff]
    constructor
    · intro hnone
      left
      refine List.eq_nil_iff_forall_not_mem.2 fun rule hrule => ?_
      obtain ⟨r, hr⟩ := (m.grantedRules_spec user).1 rule hrule
      obtain ⟨q, hq, hallow⟩ := r.exists_request
      exact hnone q hq ⟨r, mem_granted hrule hr, hallow⟩
    · rintro (hnil | hread) q - hg
      · obtain ⟨r, hr, -⟩ := hg
        rw [← (m.grantedRules_spec user).2, hnil] at hr
        obtain ⟨rule, hrule, -⟩ := hr
        cases hrule
      · exact hread.actions a ha hname

/-- A role from before its rules were normalised: an alias, and a blank behind a scope. -/
def cacheKeeper : Role where
  name := "cache-keepers"
  description := none
  actions := []
  permissions := ⟨["admin/cache:view:*", "admin/ldap-cache:view:*", "ai:view:* "], allRules_of_isOk (by decide)⟩

/-- All the rules of an entry are covered, or none is. -/
def coveredAlike (rules required : List Str) : Bool :=
  [true, false].any fun answer => required.all fun rule => (normalizePermissionRule rule).toOption.all fun r =>
    decide (permissionRulesAllow rules r.resource r.operation.text r.scope.text = .ok answer)

theorem actionsCovered_of_entries {M : LegacyMap} {rules : List Str}
    (h : ∀ e ∈ M.rules.entries, coveredAlike rules e.2 = true) : ActionsCovered M rules := by
  intro action required hget r hr hallow r' hr'
  obtain ⟨answer, -, hall⟩ := List.any_eq_true.1 (h (action, required) (Dict.mem_entries_iff.2 hget))
  have hanswer : ∀ r ∈ ruleSet required,
      permissionRulesAllow rules r.resource r.operation.text r.scope.text = .ok answer := by
    rintro r ⟨rule, hrule, hr⟩
    simpa [hr, Except.toOption] using List.all_eq_true.1 hall rule hrule
  rw [hanswer r hr] at hallow
  exact (hanswer r' hr').trans hallow

/-- The rule with the blank is made up for by `view-ai`, which it derives. -/
theorem cacheKeeper_readAlike : ReadAlike (rolesOnly defaultLegacyMap [cacheKeeper]) (.authenticated "alice" []) := by
  have hrules : (rolesOnly defaultLegacyMap [cacheKeeper]).grantedRules (.authenticated "alice" []) =
      ["admin/cache:view:*", "admin/ldap-cache:view:*", "ai:view:* "] := by decide
  have hread : ∀ rule ∈ (rolesOnly defaultLegacyMap [cacheKeeper]).grantedRules (.authenticated "alice" []),
      (leadingBlank rule || decide (resourcePart rule ∈ prototypeNames) ||
        "/*".toList.isSuffixOf (resourcePart rule)) = false ∧
        (trailingBlank rule = true → rule = "ai:view:* ".toList) := by decide
  simp only [Bool.or_eq_false_iff, decide_eq_false_iff_not] at hread
  have hblank : normalizePermissionRule "ai:view:* " = normalizePermissionRule "ai:view:*" := by decide
  refine ⟨by decide, ?_, ?_, ?_, ?_⟩
  · rw [hrules]
    have hentries : ∀ e ∈ defaultLegacyRules.entries,
        coveredAlike ["admin/cache:view:*", "admin/ldap-cache:view:*", "ai:view:* "] e.2 = true := by decide
    exact actionsCovered_of_entries hentries
  · intro rule hrule htrail r hr operation _ scope _ hadmit
    have hgranted := mem_granted hrule hr
    rw [(hread rule hrule).2 htrail, hblank] at hr
    have hget : defaultLegacyMap.rules.get "view-ai".toList = some ["ai:view:*".toList] := by decide
    have hbundle : r ∈ defaultLegacyMap.bundle "view-ai" :=
      ⟨"ai:view:*", by rw [hget]; exact List.mem_singleton_self _, hr⟩
    exact grants_of_admits (.inr ⟨"view-ai", ⟨r, hbundle, r, hgranted, permissionLanguage.allows_ask r⟩, hbundle⟩)
      hadmit
  · intro rule hrule hmis
    rcases hmis.2 with hlead | hname
    · rw [(hread rule hrule).1.1.1] at hlead
      cases hlead
    · exact absurd hname (hread rule hrule).1.1.2
  · intro operation _ scope _ hg
    obtain ⟨r, hr, hresource, hadmit⟩ := grants_star hg
    refine ⟨r, hr, hresource, hadmit, fun other hother hslash => ?_⟩
    rw [(hread other hother).1.2] at hslash
    cases hslash

theorem frontend_agrees_cacheKeeper :
    (routeShown (rolesOnly defaultLegacyMap [cacheKeeper]) (.authenticated "alice" [])
        ⟨"admin/cache", "view", "*"⟩ = true ∧
      (rolesOnly defaultLegacyMap [cacheKeeper]).allowedUserPermission (.authenticated "alice" [])
        "admin/cache" "view" "*" = .ok true) ∧
    routeShown (rolesOnly defaultLegacyMap [cacheKeeper]) (.authenticated "alice" [])
        ⟨"admin/cache", "edit", "*"⟩ ≠ true ∧
      (rolesOnly defaultLegacyMap [cacheKeeper]).allowedUserPermission (.authenticated "alice" [])
        "admin/cache" "edit" "*" ≠ .ok true := by
  have hagree := (frontend_agrees_iff rfl rfl "alice" []).2 (.inr cacheKeeper_readAlike)
  have hview : (rolesOnly defaultLegacyMap [cacheKeeper]).allowedUserPermission (.authenticated "alice" [])
      "admin/cache" "view" "*" = .ok true := by decide
  have hedit : (rolesOnly defaultLegacyMap [cacheKeeper]).allowedUserPermission (.authenticated "alice" [])
      "admin/cache" "edit" "*" ≠ .ok true := by decide
  refine ⟨⟨(hagree _ ⟨by decide, by decide, by decide⟩).2 hview, hview⟩, ?_, hedit⟩
  rw [ne_eq, hagree _ ⟨by decide, by decide, by decide⟩]
  exact hedit

/-- A role whose resource is named like a member. -/
def buildersRole : Role where
  name := "builders"
  description := none
  actions := []
  permissions := ⟨["constructor:view:*"], allRules_of_isOk (by decide)⟩

example : (rolesOnly defaultLegacyMap [buildersRole]).allowedUserPermission (.authenticated "alice" [])
    "constructor" "view" "*" = .ok true ∧
    routeShown (rolesOnly defaultLegacyMap [buildersRole]) (.authenticated "alice" [])
      ⟨"constructor", "view", "*"⟩ = false := by
  decide

/-- `dashboard:view:*` derives `view-stats`, which the frontend expands to `analysis:view:*`. -/
theorem frontend_shows_analysis :
    ¬ ∀ (m : AccessControlPolicyManager) (store : AccessControlStore), m.availableStore = some store →
      m.legacyPermissionMap = defaultLegacyMap → store.legacyPermissionMap = defaultLegacyMap →
      ∀ (login : Str) (groups : List Str), ∀ q ∈ routeRequests, routeShown m (.authenticated login groups) q = true ↔
        m.allowedUserPermission (.authenticated login groups) q.resource q.operation q.scope = .ok true := by
  intro h
  have hfront : routeShown (rolesOnly defaultLegacyMap [dashboardRole]) (.authenticated "alice" [])
      ⟨"analysis", "view", "*"⟩ = true := by decide
  have hback : (rolesOnly defaultLegacyMap [dashboardRole]).allowedUserPermission (.authenticated "alice" [])
      "analysis" "view" "*" = .ok false := by decide
  have hclaim := (h (rolesOnly defaultLegacyMap [dashboardRole]) _ rfl rfl rfl "alice" [] ⟨"analysis", "view", "*"⟩
    ⟨by decide, by decide, by decide⟩).1 hfront
  rw [hback] at hclaim
  cases hclaim

end SlurmWeb
