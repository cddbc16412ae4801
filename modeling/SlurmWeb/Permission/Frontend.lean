import SlurmWeb.Permission.Roles
import SlurmWeb.Lib.JsRecord

/-!
# The frontend's copy of the rules (src/frontend)

The gateway relays the permission payload of the agent. The browser normalises it
(`normalizeClusterPermissions`), expanding the actions once more with its own table, and asks
`hasRoutePermission` before it shows a route.

| here | there |
| --- | --- |
| `permissionPayload` | `_permission_payload` (slurmweb/views/agent.py:266) |
| `LEGACY_PERMISSION_RULES` | composables/GatewayAPI.ts:42, stores/runtime.ts:56 |
| `normalizeClusterPermissions` | GatewayAPI.ts:134 |
| `ruleAllows`, `hasRoutePermission` | runtime.ts:91, :149 |

The records of the frontend also answer for the members of `Object.prototype`; a call that raises
a `TypeError` ends the check.

* `ruleAllows_normalizeRule` — how the frontend reads a rule the backend accepts.
* `someRuleAllows_text_iff`, `someRuleAllows_inherited_iff` — what the check answers.
* `hasRoutePermission_returns` — on normalised permissions the check of a resource that is no such
  member does not raise.
-/

namespace SlurmWeb

open Strings RuleLanguage JsRecord

/-! ## The payload -/

structure ClusterPermissionsSources where
  policy : Option Assignment
  custom : Option Assignment
  merged : Option Assignment

structure ClusterPermissions where
  roles : List Str
  actions : List Str
  rules : List Str
  sources : Option ClusterPermissionsSources

/-- `_sorted_strings` of the three sets of an assignment. -/
def sortedAssignment (a : Assignment) : Assignment :=
  ⟨sortedStrings a.roles.dedup, sortedStrings a.actions.dedup, sortedStrings a.rules.dedup⟩

/-- The dictionary `_permission_payload` (agent.py:291) builds. -/
def payloadOf (sources : AccessControlPolicyManager.Sources) : ClusterPermissions where
  roles := (sortedAssignment sources.merged).roles
  actions := (sortedAssignment sources.merged).actions
  rules := (sortedAssignment sources.merged).rules
  sources := some ⟨some (sortedAssignment sources.policy), some (sortedAssignment sources.custom),
    some (sortedAssignment sources.merged)⟩

/-- `_permission_payload` (agent.py:266) -/
def permissionPayload (m : AccessControlPolicyManager) (user : User) : Except RuleError ClusterPermissions := do
  let sources ← m.rolesActionsSources user
  return payloadOf sources

/-! ## Normalisation (GatewayAPI.ts:111-151) -/

/-- The entries of `DEFAULT_LEGACY_PERMISSION_MAP`, written out in both TypeScript files. -/
def LEGACY_PERMISSION_RULES : Dict Str (List Str) := DEFAULT_LEGACY_PERMISSION_MAP

/-- The one entry is that of `PERMISSION_RESOURCE_ALIASES`. -/
def RULE_RESOURCE_ALIASES : Dict Str Str := PERMISSION_RESOURCE_ALIASES

/-- A resource, or what the record of the aliases inherits in its place. -/
inductive Resource
  | text (resource : Str)
  | inherited (name : Str)
deriving DecidableEq

/-- `RULE_RESOURCE_ALIASES[resource] ?? resource` -/
def aliasResource (resource : Str) : Resource :=
  match lookup RULE_RESOURCE_ALIASES resource with
  | .own target => .text target
  | .inherited => .inherited resource
  | .missing => .text resource

/-- The resource in a template literal. -/
def Resource.printed : Resource → Str
  | text resource => resource
  | inherited name => JsRecord.printed name

/-- `for (const rule of LEGACY_PERMISSION_RULES[action] ?? [])`: what is inherited is not iterable. -/
def legacyRulesOf (action : Str) : Except JsError (List Str) :=
  match lookup LEGACY_PERMISSION_RULES action with
  | .own rules => .ok rules
  | .inherited => .error .typeError
  | .missing => .ok []

def legacyRules (actions : List Str) : Except JsError (List Str) := do return (← actions.mapM legacyRulesOf).flatten

/-- The callback of `map` in `normalizeClusterPermissionAssignment` (:121); parts after the third
are ignored. -/
def normalizeRule (rule : Str) : Str :=
  match rule.splitOn ':' with
  | resource :: operation :: scope :: _ =>
    if resource = [] ∨ operation = [] ∨ scope = [] then rule
    else [':'].intercalate [(aliasResource resource).printed, operation, scope]
  | _ => rule

/-- `normalizeClusterPermissionAssignment` (:111) -/
def normalizeClusterPermissionAssignment (assignment : Option Assignment) : Except JsError Assignment := do
  let actions := (assignment.map Assignment.actions).getD []
  let rules := (assignment.map Assignment.rules).getD [] ++ (← legacyRules actions)
  return ⟨(assignment.map Assignment.roles).getD [], actions, sort (rules.dedup.map normalizeRule)⟩

/-- `normalizeClusterPermissions` (:134) -/
def normalizeClusterPermissions (permissions : ClusterPermissions) : Except JsError ClusterPermissions := do
  let source := permissions.sources.bind ClusterPermissionsSources.merged
  let merged ← normalizeClusterPermissionAssignment (some
    ⟨(source.map Assignment.roles).getD permissions.roles,
      (source.map Assignment.actions).getD permissions.actions,
      (source.map Assignment.rules).getD permissions.rules⟩)
  let policy ← normalizeClusterPermissionAssignment (permissions.sources.bind ClusterPermissionsSources.policy)
  let custom ← normalizeClusterPermissionAssignment (permissions.sources.bind ClusterPermissionsSources.custom)
  return ⟨merged.roles, merged.actions, merged.rules, some ⟨some policy, some custom, some merged⟩⟩

/-! ## The check (runtime.ts:79-173) -/

/-- `operationAllows` (:79) -/
def operationAllows (granted requested : Str) : Bool :=
  if granted = "*".toList then true
  else if requested = "view".toList then ["view".toList, "edit", "delete"].contains granted
  else granted == requested

/-- `resourceAllows` (:85); functions and objects have neither `endsWith` nor `startsWith`. -/
def resourceAllows (granted requested : Resource) : Except JsError Bool :=
  if granted = .text "*" then .ok true
  else if granted = requested then .ok true
  else
    match granted, requested with
    | .inherited _, _ => .error .typeError
    | .text granted, .text requested => .ok ("/*".toList.isSuffixOf granted && granted.dropLast.isPrefixOf requested)
    | .text granted, .inherited _ => if "/*".toList.isSuffixOf granted then .error .typeError else .ok false

/-- `ruleAllows` (:91) -/
def ruleAllows (rule resource operation scope : Str) : Except JsError Bool :=
  match rule.splitOn ':' with
  | grantedResource :: grantedOperation :: grantedScope :: _ =>
    if grantedResource = [] ∨ grantedOperation = [] ∨ grantedScope = [] then .ok false
    else do
      let resourceAllowed ← resourceAllows (aliasResource grantedResource) (aliasResource resource)
      return resourceAllowed && operationAllows grantedOperation operation &&
        (grantedScope == "*".toList || grantedScope == scope)
  | _ => .ok false

/-- `[...rules].some((rule) => ruleAllows(..))` -/
def someRuleAllows (resource operation scope : Str) : List Str → Except JsError Bool
  | [] => .ok false
  | rule :: rules => do
    if ← ruleAllows rule resource operation scope then return true
    else someRuleAllows resource operation scope rules

/-- `cluster.permissions.sources?.merged?.rules ?? cluster.permissions.rules ?? []` -/
def ClusterPermissions.mergedRules (permissions : ClusterPermissions) : List Str :=
  ((permissions.sources.bind ClusterPermissionsSources.merged).map Assignment.rules).getD permissions.rules

/-- The rules `hasRoutePermission` (:149) goes through. -/
def routeRules (permissions : ClusterPermissions) : Except JsError (List Str) :=
  if permissions.mergedRules = [] then legacyRules permissions.actions else .ok permissions.mergedRules

/-- `hasRoutePermission` (:149) on the permissions of a known cluster. -/
def hasRoutePermission (permissions : ClusterPermissions) (resource operation scope : Str) : Except JsError Bool := do
  someRuleAllows resource operation scope (← routeRules permissions)

/-! ## The records -/

theorem aliases_get (resource : Str) : RULE_RESOURCE_ALIASES.get resource =
    if resource = "admin/ldap-cache".toList then some "admin/ldap-users".toList else none := by
  simp only [RULE_RESOURCE_ALIASES, PERMISSION_RESOURCE_ALIASES, Dict.ofList, Dict.update_cons,
    Dict.update_nil, Dict.get_set, Dict.get_empty]
  by_cases h : resource = "admin/ldap-cache".toList
  · rw [if_pos h, if_pos h.symm]
  · rw [if_neg h, if_neg (Ne.symm h)]

theorem aliasResource_eq {resource : Str} (h : resource ∉ prototypeNames) :
    aliasResource resource = .text (canonicalResource resource) := by
  rw [aliasResource, lookup_of_not_mem h, aliases_get, canonicalResource_eq]
  by_cases hsame : resource = "admin/ldap-cache".toList
  · rw [if_pos hsame, if_pos hsame]
    rfl
  · rw [if_neg hsame, if_neg hsame]
    rfl

theorem alias_not_prototype : "admin/ldap-cache".toList ∉ prototypeNames ∧
    "admin/ldap-users".toList ∉ prototypeNames := by
  decide

theorem aliasResource_inherited {resource : Str} (h : resource ∈ prototypeNames) :
    aliasResource resource = .inherited resource := by
  have hown : RULE_RESOURCE_ALIASES.get resource = none := by
    rw [aliases_get, if_neg]
    rintro rfl
    exact alias_not_prototype.1 h
  rw [aliasResource, lookup_of_mem h hown]

theorem canonicalResource_prototype {resource : Str} (h : resource ∈ prototypeNames) :
    canonicalResource resource = resource := by
  rw [canonicalResource_eq, if_neg]
  rintro rfl
  exact alias_not_prototype.1 h

theorem canonicalResource_not_prototype {resource : Str} (h : resource ∉ prototypeNames) :
    canonicalResource resource ∉ prototypeNames := by
  rw [canonicalResource_eq]
  split
  · exact alias_not_prototype.2
  · exact h

theorem legacy_not_prototype : ∀ name ∈ prototypeNames, LEGACY_PERMISSION_RULES.get name = none := by decide

theorem legacyRulesOf_ok {action : Str} (h : action ∉ prototypeNames) :
    legacyRulesOf action = .ok ((LEGACY_PERMISSION_RULES.get action).getD []) := by
  rw [legacyRulesOf, lookup_of_not_mem h]
  cases LEGACY_PERMISSION_RULES.get action <;> rfl

theorem legacyRulesOf_error {action : Str} (h : action ∈ prototypeNames) :
    legacyRulesOf action = .error .typeError := by
  rw [legacyRulesOf, lookup_of_mem h (legacy_not_prototype action h)]

/-- The actions are expanded unless one is named like an inherited member. -/
theorem legacyRules_eq_ok {actions rules : List Str} : legacyRules actions = .ok rules ↔
    (∀ a ∈ actions, a ∉ prototypeNames) ∧ rules = mappedRules actions LEGACY_PERMISSION_RULES := by
  induction actions generalizing rules with
  | nil =>
    constructor
    · intro h
      cases h
      exact ⟨nofun, rfl⟩
    · rintro ⟨-, rfl⟩
      rfl
  | cons action actions ih =>
    have hcons : legacyRules (action :: actions) =
        (legacyRulesOf action >>= fun first => legacyRules actions >>= fun rest => .ok (first ++ rest)) := by
      simp only [legacyRules, List.mapM_cons]
      cases legacyRulesOf action <;> cases actions.mapM legacyRulesOf <;> rfl
    rw [hcons]
    by_cases haction : action ∈ prototypeNames
    · rw [legacyRulesOf_error haction]
      exact iff_of_false (by rintro ⟨⟩) fun h => h.1 action List.mem_cons_self haction
    · rw [legacyRulesOf_ok haction, Except.ok_bind]
      constructor
      · intro h
        obtain ⟨rest, hrest, h⟩ := Except.bind_eq_ok.1 h
        obtain ⟨hactions, rfl⟩ := ih.1 hrest
        cases h
        exact ⟨List.forall_mem_cons.2 ⟨haction, hactions⟩, rfl⟩
      · rintro ⟨hactions, rfl⟩
        rw [ih.2 ⟨(List.forall_mem_cons.1 hactions).2, rfl⟩]
        rfl

/-! ## The check on texts -/

theorem operationAllows_text (granted : Operation) (requested : Str) :
    operationAllows granted.text requested = operationAllowed granted requested := by
  unfold operationAllows operationAllowed
  by_cases hv : requested = "view".toList
  · subst hv; cases granted <;> decide
  · rw [if_neg hv, if_neg hv]
    cases granted <;> rfl

theorem resourceAllows_text (granted requested : Str) :
    resourceAllows (.text granted) (.text requested) = .ok (resourceMatches granted requested) := by
  unfold resourceAllows resourceMatches
  simp only [Resource.text.injEq]
  split
  · rfl
  split
  · rfl
  split <;> simp_all

theorem resourceAllows_inherited (granted name : Str) : resourceAllows (.text granted) (.inherited name) =
    if granted = "*".toList then .ok true else if "/*".toList.isSuffixOf granted then
      .error .typeError else .ok false := by
  unfold resourceAllows
  simp only [Resource.text.injEq, reduceCtorEq, if_false]

/-! ## A rule in the browser -/

/-- What stands before the first colon. -/
def resourcePart (rule : Str) : Str := (rule.splitOn ':').headD []

def leadingBlank (rule : Str) : Bool := rule.head?.any isSpace

def trailingBlank (rule : Str) : Bool := rule.getLast?.any isSpace

/-- A text that both sides read alike, if the backend accepts it. -/
def Plain (rule : Str) : Prop := leadingBlank rule = false ∧ trailingBlank rule = false ∧
  resourcePart rule ∉ prototypeNames

/-- The resource that is left of a rule when it is normalised. -/
def relayedResource (rule : Str) : Str := (aliasResource (resourcePart rule)).printed

/-- The parts of a text the backend accepts: blanks around the resource's own text and the rest. -/
structure Parts (rule : Str) (r : PermissionRule) (lead raw trail : Str) : Prop where
  split : rule.splitOn ':' = [lead ++ raw, r.operation.text, r.scope.text ++ trail]
  lead : ∀ c ∈ lead, isSpace c = true
  trail : ∀ c ∈ trail, isSpace c = true
  raw_ne : raw ≠ []
  raw_colon : ':' ∉ raw
  raw_head : ∀ c ∈ raw.head?, isSpace c = false
  resource : r.resource = canonicalResource raw

theorem not_colon_of_blank {blanks : Str} (h : ∀ c ∈ blanks, isSpace c = true) : ':' ∉ blanks :=
  fun hc => absurd (h ':' hc) (by decide)

theorem normalizePermissionRule_parts {rule : Str} {r : PermissionRule} (h : normalizePermissionRule rule = .ok r) :
    ∃ lead raw trail, Parts rule r lead raw trail := by
  obtain ⟨raw, hsplit, hne, hres⟩ : ∃ raw, (strip rule).splitOn ':' = [raw, r.operation.text, r.scope.text] ∧ raw ≠ [] ∧
      r.resource = canonicalResource raw := by
    unfold normalizePermissionRule at h
    split at h
    · rename_i raw operation scope hsplit
      split at h
      · cases h
      rename_i hne
      split at h
      · cases h
      rename_i op hop
      split at h
      · cases h
      rename_i sc hsc
      cases h
      have hoptext : op.text = operation := by simpa using List.find?_some hop
      have hsctext : sc.text = scope := by simpa using List.find?_some hsc
      subst hoptext hsctext
      exact ⟨raw, hsplit, hne, rfl⟩
    · cases h
  have hcolon : ':' ∉ raw := not_mem_of_mem_splitOn (s := strip rule) (by simp [hsplit])
  obtain ⟨lead, trail, hrule, hlead, htrail⟩ := strip_decompose rule
  refine ⟨lead, raw, trail, ?_, hlead, htrail, hne, hcolon, resource_head_of_split hne hsplit, hres⟩
  have hjoin : rule = [':'].intercalate [lead ++ raw, r.operation.text, r.scope.text ++ trail] := by
    have hstrip : strip rule = [':'].intercalate [raw, r.operation.text, r.scope.text] :=
      hsplit ▸ (List.intercalate_splitOn ':').symm
    rw [hrule, hstrip]
    simp [List.intercalate_cons_cons]
  rw [hjoin]
  refine List.splitOn_intercalate ':' ?_ (by simp)
  simp [hcolon, not_colon_of_blank hlead, not_colon_of_blank htrail, r.operation.colon_free, r.scope.colon_free]

namespace Parts

variable {rule lead raw trail : Str} {r : PermissionRule}

theorem joined (h : Parts rule r lead raw trail) :
    rule = [':'].intercalate [lead ++ raw, r.operation.text, r.scope.text ++ trail] :=
  h.split ▸ (List.intercalate_splitOn ':').symm

theorem resourcePart_eq (h : Parts rule r lead raw trail) : resourcePart rule = lead ++ raw := by
  rw [resourcePart, h.split]
  rfl

theorem leadingBlank_eq (h : Parts rule r lead raw trail) : leadingBlank rule = !lead.isEmpty := by
  obtain ⟨c, cs, hraw⟩ := List.exists_cons_of_ne_nil h.raw_ne
  have hc : isSpace c = false := h.raw_head c (by rw [hraw]; rfl)
  have hlead := h.lead
  rw [leadingBlank, h.joined, hraw]
  cases lead with
  | nil => simp [List.intercalate_cons_cons, hc]
  | cons b bs => simp [List.intercalate_cons_cons, hlead b List.mem_cons_self]

theorem scope_last (h : Parts rule r lead raw trail) :
    (r.scope.text ++ trail).getLast?.any isSpace = !trail.isEmpty := by
  rcases List.eq_nil_or_concat trail with rfl | ⟨bs, b, rfl⟩
  · cases r.scope <;> rfl
  · have hb : isSpace b = true := h.trail b (by simp)
    simp [← List.append_assoc, hb]

theorem trailingBlank_eq (h : Parts rule r lead raw trail) : trailingBlank rule = !trail.isEmpty := by
  have hne : r.scope.text ++ trail ≠ [] := by cases r.scope <;> simp [Scope.text]
  obtain ⟨cs, c, hc⟩ := (List.eq_nil_or_concat (r.scope.text ++ trail)).resolve_left hne
  have hlast := h.scope_last
  rw [trailingBlank, h.joined, ← hlast, hc]
  simp [List.intercalate_cons_cons, List.getLast?_append, List.getLast?_cons]

end Parts

/-- The record inherits no resource that is written with a leading blank. -/
theorem prototype_no_blank {rule lead raw trail : Str} {r : PermissionRule} (h : Parts rule r lead raw trail)
    (hmem : resourcePart rule ∈ prototypeNames) : lead = [] := by
  have hhead := (prototypeNames_spec _ hmem).2.2.1
  have hlead := h.lead
  rw [h.resourcePart_eq] at hhead
  cases lead with
  | nil => rfl
  | cons b bs => simp [hlead b List.mem_cons_self] at hhead

theorem relayedResource_spec {rule lead raw trail : Str} {r : PermissionRule} (h : Parts rule r lead raw trail) :
    ':' ∉ relayedResource rule ∧ relayedResource rule ≠ [] ∧ relayedResource rule ∉ prototypeNames ∧
      canonicalResource (relayedResource rule) = relayedResource rule := by
  by_cases hmem : resourcePart rule ∈ prototypeNames
  · obtain ⟨hcolon, hslash, hnot, -, hne⟩ := printed_spec _ hmem
    rw [relayedResource, aliasResource_inherited hmem, Resource.printed]
    refine ⟨hcolon, hne, hnot, ?_⟩
    rw [canonicalResource_eq, if_neg]
    intro heq
    rw [heq] at hslash
    exact hslash (by decide)
  · rw [relayedResource, aliasResource_eq hmem, Resource.printed]
    refine ⟨?_, ?_, canonicalResource_not_prototype hmem, canonicalResource_idem _⟩
    · rw [canonicalResource_eq, h.resourcePart_eq]
      split
      · decide
      · simp [not_colon_of_blank h.lead, h.raw_colon]
    · rw [canonicalResource_eq, h.resourcePart_eq]
      split
      · decide
      · simp [h.raw_ne]

theorem normalizeRule_parts {rule lead raw trail : Str} {r : PermissionRule} (h : Parts rule r lead raw trail) :
    normalizeRule rule = [':'].intercalate [relayedResource rule, r.operation.text, r.scope.text ++ trail] := by
  have hresource : lead ++ raw ≠ [] := by simp [h.raw_ne]
  have hoperation : r.operation.text ≠ [] := by cases r.operation <;> decide
  have hscope : r.scope.text ++ trail ≠ [] := by cases r.scope <;> simp [Scope.text]
  simp only [normalizeRule, h.split]
  rw [if_neg (by simp only [hresource, hoperation, hscope, or_self, not_false_eq_true]),
    relayedResource, h.resourcePart_eq]

theorem normalizeRule_split {rule lead raw trail : Str} {r : PermissionRule} (h : Parts rule r lead raw trail) :
    (normalizeRule rule).splitOn ':' = [relayedResource rule, r.operation.text, r.scope.text ++ trail] := by
  rw [normalizeRule_parts h]
  refine List.splitOn_intercalate ':' ?_ (by simp)
  simp [(relayedResource_spec h).1, not_colon_of_blank h.trail, r.operation.colon_free, r.scope.colon_free]

/-- What a rule allows apart from its resource. -/
def PermissionRule.admits (r : PermissionRule) (operation scope : Str) : Bool :=
  operationAllowed r.operation operation && (r.scope == .any || r.scope.text == scope)

theorem PermissionRule.allows_eq (r : PermissionRule) (resource operation scope : Str) :
    r.allows resource operation scope = (resourceMatches r.resource resource && r.admits operation scope) := by
  rw [allows, admits, Bool.and_assoc]

/-- A scope with a blank behind it is none of the scopes. -/
theorem scope_allowed {rule lead raw trail : Str} {r : PermissionRule} (h : Parts rule r lead raw trail) {scope : Str}
    (hscope : scope ∈ ["*".toList, "self"]) :
    (r.scope.text ++ trail == "*".toList || r.scope.text ++ trail == scope) =
      ((r.scope == .any || r.scope.text == scope) && !trailingBlank rule) := by
  rw [h.trailingBlank_eq]
  rcases List.eq_nil_or_concat trail with rfl | ⟨bs, b, rfl⟩
  · rw [List.append_nil]
    cases r.scope <;> simp [Scope.text]
  · have hlast := h.scope_last
    have hne : ∀ text ∈ ["*".toList, "self"], r.scope.text ++ bs.concat b ≠ text := by
      intro text htext heq
      rw [heq] at hlast
      rcases List.mem_cons.1 htext with rfl | htext
      · simp [show isSpace '*' = false from rfl] at hlast
      · rw [List.mem_singleton.1 htext] at hlast
        simp [show isSpace 'f' = false from rfl] at hlast
    rw [beq_false_of_ne (hne _ List.mem_cons_self), beq_false_of_ne (hne scope hscope)]
    simp

/-- How the frontend reads a normalised rule: with the resource that is left of it, and not at all when a blank stands
behind its scope. -/
theorem ruleAllows_normalizeRule {rule : Str} {r : PermissionRule} (h : normalizePermissionRule rule = .ok r)
    (resource operation : Str) {scope : Str} (hscope : scope ∈ ["*".toList, "self"]) :
    ruleAllows (normalizeRule rule) resource operation scope =
      (resourceAllows (.text (relayedResource rule)) (aliasResource resource)).map
        (· && (r.admits operation scope && !trailingBlank rule)) := by
  obtain ⟨lead, raw, trail, hparts⟩ := normalizePermissionRule_parts h
  obtain ⟨-, hne, hnot, hcanonical⟩ := relayedResource_spec hparts
  have hoperation : r.operation.text ≠ [] := by cases r.operation <;> decide
  have hscopene : r.scope.text ++ trail ≠ [] := by cases r.scope <;> simp [Scope.text]
  simp only [ruleAllows, normalizeRule_split hparts]
  rw [if_neg (by simp only [hne, hoperation, hscopene, or_self, not_false_eq_true]), aliasResource_eq hnot, hcanonical]
  cases resourceAllows (.text (relayedResource rule)) (aliasResource resource) with
  | error e => rfl
  | ok allowed =>
    simp only [Except.ok_bind, Except.map, operationAllows_text, scope_allowed hparts hscope,
      PermissionRule.admits, Bool.and_assoc]
    rfl

/-! ## The scan -/

/-- The scan ends with the first rule that allows the request, unless an exception ends it before. -/
theorem someRuleAllows_eq_true_iff {resource operation scope : Str} {rules : List Str} :
    someRuleAllows resource operation scope rules = .ok true ↔ ∃ pre rule post, rules = pre ++ rule :: post ∧
      ruleAllows rule resource operation scope = .ok true ∧
      ∀ before ∈ pre, ¬ ruleAllows before resource operation scope = .error .typeError := by
  induction rules with
  | nil => simp [someRuleAllows]
  | cons first rules ih =>
    have hstep : ∀ {b : Except JsError Bool}, ruleAllows first resource operation scope = b →
        someRuleAllows resource operation scope (first :: rules) =
          b.bind fun allowed => if allowed then .ok true else someRuleAllows resource operation scope rules := by
      rintro b rfl
      rw [someRuleAllows]
      rfl
    cases hfirst : ruleAllows first resource operation scope with
    | error e =>
      cases e
      rw [hstep hfirst]
      refine iff_of_false (by rintro ⟨⟩) ?_
      rintro ⟨pre, rule, post, heq, hrule, hpre⟩
      rcases List.cons_eq_append_iff.1 heq with ⟨rfl, heq⟩ | ⟨pre, rfl, -⟩
      · cases heq
        rw [hfirst] at hrule
        cases hrule
      · exact hpre first List.mem_cons_self hfirst
    | ok allowed =>
      rw [hstep hfirst, Except.bind]
      cases allowed with
      | true => exact iff_of_true rfl ⟨[], first, rules, rfl, hfirst, nofun⟩
      | false =>
        rw [if_neg Bool.false_ne_true, ih]
        constructor
        · rintro ⟨pre, rule, post, rfl, hrule, hpre⟩
          refine ⟨first :: pre, rule, post, rfl, hrule, List.forall_mem_cons.2 ⟨?_, hpre⟩⟩
          rw [hfirst]
          exact nofun
        · rintro ⟨pre, rule, post, heq, hrule, hpre⟩
          rcases List.cons_eq_append_iff.1 heq with ⟨rfl, heq⟩ | ⟨pre, rfl, hrest⟩
          · cases heq
            rw [hfirst] at hrule
            cases hrule
          · exact ⟨pre, rule, post, hrest, hrule, (List.forall_mem_cons.1 hpre).2⟩

/-- Over sorted rules: one that allows the request is below all those that end the scan. -/
theorem someRuleAllows_sort_iff {resource operation scope : Str} {rules : List Str} :
    someRuleAllows resource operation scope (sort rules) = .ok true ↔
      ∃ rule ∈ rules, ruleAllows rule resource operation scope = .ok true ∧
        ∀ other ∈ rules, ruleAllows other resource operation scope = .error .typeError →
          codeUnits rule < codeUnits other := by
  rw [someRuleAllows_eq_true_iff]
  exact first_of_sort_iff fun rule h h' => by rw [h] at h'; cases h'

/-! ## Texts read alike -/

theorem relayed_plain {rule : Str} {r : PermissionRule} (h : normalizePermissionRule rule = .ok r)
    (hplain : Plain rule) :
    relayedResource rule = r.resource ∧ normalizeRule rule = r.text ∧ r.resource ∉ prototypeNames := by
  obtain ⟨lead, raw, trail, hparts⟩ := normalizePermissionRule_parts h
  obtain ⟨hlead, htrail, hmem⟩ := hplain
  rw [hparts.leadingBlank_eq, Bool.not_eq_false', List.isEmpty_iff] at hlead
  rw [hparts.trailingBlank_eq, Bool.not_eq_false', List.isEmpty_iff] at htrail
  subst hlead htrail
  have hraw : resourcePart rule = raw := hparts.resourcePart_eq
  have hresource : relayedResource rule = r.resource := by
    rw [relayedResource, aliasResource_eq hmem, hraw, hparts.resource]
    rfl
  refine ⟨hresource, ?_, ?_⟩
  · rw [normalizeRule_parts hparts, hresource, List.append_nil]
    rfl
  · rw [hparts.resource]
    exact canonicalResource_not_prototype (hraw ▸ hmem)

/-- A blank before the resource stays. -/
theorem relayed_blank {rule : Str} {r : PermissionRule} (h : normalizePermissionRule rule = .ok r)
    (hblank : leadingBlank rule = true) :
    (relayedResource rule).head?.any isSpace = true ∧ resourcePart rule ∉ prototypeNames := by
  obtain ⟨lead, raw, trail, hparts⟩ := normalizePermissionRule_parts h
  rw [hparts.leadingBlank_eq, Bool.not_eq_true', List.isEmpty_eq_false_iff] at hblank
  obtain ⟨b, bs, rfl⟩ := List.exists_cons_of_ne_nil hblank
  have hb : isSpace b = true := hparts.lead b List.mem_cons_self
  have hmem : resourcePart rule ∉ prototypeNames := fun hmem => hblank (prototype_no_blank hparts hmem)
  refine ⟨?_, hmem⟩
  rw [relayedResource, aliasResource_eq hmem, Resource.printed, canonicalResource_eq, hparts.resourcePart_eq, if_neg]
  · simp [hb]
  · intro heq
    have hhead := congrArg List.head? heq
    rw [List.cons_append, List.head?_cons] at hhead
    cases hhead
    exact absurd hb (by decide)

/-- Only a plain text is read as a rule for every resource. -/
theorem relayed_star {rule : Str} {r : PermissionRule} (h : normalizePermissionRule rule = .ok r)
    (hstar : relayedResource rule = "*".toList) (htrail : trailingBlank rule = false) : Plain rule ∧
      r.resource = "*".toList := by
  have hmem : resourcePart rule ∉ prototypeNames := by
    intro hmem
    have hhead := (printed_spec _ hmem).2.2.2.1
    rw [relayedResource, aliasResource_inherited hmem, Resource.printed] at hstar
    rw [hstar] at hhead
    exact absurd hhead (by decide)
  have hlead : leadingBlank rule = false := by
    rw [← Bool.not_eq_true]
    intro hblank
    have := (relayed_blank h hblank).1
    rw [hstar] at this
    exact absurd this (by decide)
  have hplain : Plain rule := ⟨hlead, htrail, hmem⟩
  exact ⟨hplain, (relayed_plain h hplain).1 ▸ hstar⟩

theorem suffix_slash {text : Str} (h : "/*".toList.isSuffixOf text = true) : '/' ∈ text :=
  (List.isSuffixOf_iff_suffix.1 h).subset (by decide)

/-- A rule for everything below a resource keeps its text. -/
theorem relayed_slash {rule : Str} {r : PermissionRule} (h : normalizePermissionRule rule = .ok r) :
    "/*".toList.isSuffixOf (relayedResource rule) = "/*".toList.isSuffixOf (resourcePart rule) ∧
      ("/*".toList.isSuffixOf (resourcePart rule) = true → normalizeRule rule = rule) := by
  obtain ⟨lead, raw, trail, hparts⟩ := normalizePermissionRule_parts h
  by_cases hmem : resourcePart rule ∈ prototypeNames
  · have hprinted : "/*".toList.isSuffixOf (relayedResource rule) = false := by
      rw [relayedResource, aliasResource_inherited hmem, Resource.printed, ← Bool.not_eq_true]
      exact fun hsuffix => (printed_spec _ hmem).2.1 (suffix_slash hsuffix)
    have hname : "/*".toList.isSuffixOf (resourcePart rule) = false := by
      rw [← Bool.not_eq_true]
      exact fun hsuffix => (prototypeNames_spec _ hmem).2.1 (suffix_slash hsuffix)
    rw [hprinted, hname]
    exact ⟨rfl, fun h => absurd h Bool.false_ne_true⟩
  by_cases halias : resourcePart rule = "admin/ldap-cache".toList
  · have hrelayed : relayedResource rule = "admin/ldap-users".toList := by
      rw [relayedResource, aliasResource_eq hmem, canonicalResource_eq, if_pos halias]
      rfl
    rw [hrelayed, halias]
    exact ⟨by decide, fun h => absurd h (by decide)⟩
  · have hrelayed : relayedResource rule = resourcePart rule := by
      rw [relayedResource, aliasResource_eq hmem, canonicalResource_eq, if_neg halias]
      rfl
    refine ⟨by rw [hrelayed], fun _ => ?_⟩
    rw [normalizeRule_parts hparts, hrelayed, hparts.resourcePart_eq]
    exact hparts.joined.symm

/-! ## The check -/

theorem ruleAllows_text {rule : Str} {r : PermissionRule} (h : normalizePermissionRule rule = .ok r) {q : Request}
    (hname : q.resource ∉ prototypeNames) (hcanonical : canonicalResource q.resource = q.resource)
    (hscope : q.scope ∈ ["*".toList, "self"]) :
    ruleAllows (normalizeRule rule) q.resource q.operation q.scope =
      .ok (resourceMatches (relayedResource rule) q.resource &&
        (r.admits q.operation q.scope && !trailingBlank rule)) := by
  rw [ruleAllows_normalizeRule h q.resource q.operation hscope, aliasResource_eq hname, hcanonical, resourceAllows_text]
  rfl

theorem ruleAllows_inherited {rule : Str} {r : PermissionRule} (h : normalizePermissionRule rule = .ok r) {q : Request}
    (hname : q.resource ∈ prototypeNames) (hscope : q.scope ∈ ["*".toList, "self"]) :
    ruleAllows (normalizeRule rule) q.resource q.operation q.scope =
      if relayedResource rule = "*".toList then .ok (r.admits q.operation q.scope && !trailingBlank rule)
      else if "/*".toList.isSuffixOf (resourcePart rule) then .error .typeError else .ok false := by
  rw [ruleAllows_normalizeRule h q.resource q.operation hscope, aliasResource_inherited hname, resourceAllows_inherited,
    (relayed_slash h).1]
  split
  · rfl
  split <;> rfl

/-- The frontend's check of a resource the record of the aliases does not inherit. -/
theorem someRuleAllows_text_iff {rules : List Str} (hv : AllRules rules) {q : Request}
    (hname : q.resource ∉ prototypeNames)
    (hcanonical : canonicalResource q.resource = q.resource) (hscope : q.scope ∈ ["*".toList, "self"]) :
    someRuleAllows q.resource q.operation q.scope (sort (rules.dedup.map normalizeRule)) = .ok true ↔
      ∃ rule ∈ rules, ∃ r, normalizePermissionRule rule = .ok r ∧ trailingBlank rule = false ∧
        resourceMatches (relayedResource rule) q.resource = true ∧ r.admits q.operation q.scope = true := by
  have hread : ∀ {rule r}, normalizePermissionRule rule = .ok r →
      _ := fun h => ruleAllows_text h hname hcanonical hscope
  simp only [someRuleAllows_sort_iff, List.mem_map, List.mem_dedup]
  constructor
  · rintro ⟨_, ⟨rule, hrule, rfl⟩, hallow, -⟩
    obtain ⟨r, hr⟩ := hv rule hrule
    rw [hread hr, Except.ok.injEq, Bool.and_eq_true, Bool.and_eq_true, Bool.not_eq_true'] at hallow
    exact ⟨rule, hrule, r, hr, hallow.2.2, hallow.1, hallow.2.1⟩
  · rintro ⟨rule, hrule, r, hr, htrail, hmatch, hadmit⟩
    refine ⟨_, ⟨rule, hrule, rfl⟩, ?_, ?_⟩
    · rw [hread hr, hmatch, hadmit, htrail]
      rfl
    · rintro _ ⟨other, hother, rfl⟩ hraise
      obtain ⟨r', hr'⟩ := hv other hother
      rw [hread hr'] at hraise
      cases hraise

/-- Its check of the name of a member: a rule for every resource has to come before the rules that raise. -/
theorem someRuleAllows_inherited_iff {rules : List Str} (hv : AllRules rules) {q : Request}
    (hname : q.resource ∈ prototypeNames) (hscope : q.scope ∈ ["*".toList, "self"]) :
    someRuleAllows q.resource q.operation q.scope (sort (rules.dedup.map normalizeRule)) = .ok true ↔
      ∃ rule ∈ rules, ∃ r, normalizePermissionRule rule = .ok r ∧ Plain rule ∧ r.resource = "*".toList ∧
        r.admits q.operation q.scope = true ∧
        ∀ other ∈ rules, "/*".toList.isSuffixOf (resourcePart other) = true → codeUnits r.text < codeUnits other := by
  have hread : ∀ {rule r}, normalizePermissionRule rule = .ok r → _ := fun h => ruleAllows_inherited h hname hscope
  -- no rule for every resource ends the scan
  have hraise : ∀ {rule r}, normalizePermissionRule rule = .ok r →
      (ruleAllows (normalizeRule rule) q.resource q.operation q.scope = .error .typeError ↔
        "/*".toList.isSuffixOf (resourcePart rule) = true) := by
    intro rule r hr
    rw [hread hr]
    split
    · rename_i hstar
      rw [← (relayed_slash hr).1, hstar]
      exact iff_of_false (by rintro ⟨⟩) (by decide)
    split
    · rename_i hslash
      exact iff_of_true rfl hslash
    · rename_i hslash
      exact iff_of_false (by rintro ⟨⟩) hslash
  simp only [someRuleAllows_sort_iff, List.mem_map, List.mem_dedup]
  constructor
  · rintro ⟨_, ⟨rule, hrule, rfl⟩, hallow, hlow⟩
    obtain ⟨r, hr⟩ := hv rule hrule
    rw [hread hr] at hallow
    split at hallow
    · rename_i hstar
      rw [Except.ok.injEq, Bool.and_eq_true, Bool.not_eq_true'] at hallow
      obtain ⟨hplain, hresource⟩ := relayed_star hr hstar hallow.2
      refine ⟨rule, hrule, r, hr, hplain, hresource, hallow.1, fun other hother hslash => ?_⟩
      obtain ⟨r', hr'⟩ := hv other hother
      have := hlow _ ⟨other, hother, rfl⟩ ((hraise hr').2 hslash)
      rwa [(relayed_plain hr hplain).2.1, (relayed_slash hr').2 hslash] at this
    · split at hallow <;> cases hallow
  · rintro ⟨rule, hrule, r, hr, hplain, hresource, hadmit, hlow⟩
    refine ⟨_, ⟨rule, hrule, rfl⟩, ?_, ?_⟩
    · rw [hread hr, if_pos ((relayed_plain hr hplain).1.trans hresource), hadmit, hplain.2.1]
      rfl
    · rintro _ ⟨other, hother, rfl⟩ hother'
      obtain ⟨r', hr'⟩ := hv other hother
      have hslash := (hraise hr').1 hother'
      rw [(relayed_plain hr hplain).2.1, (relayed_slash hr').2 hslash]
      exact hlow other hother hslash

/-! ## Normalised permissions -/

/-- The permissions of a cluster as the stores of the frontend hold them. -/
abbrev NormalizedPermissions :=
  {permissions : ClusterPermissions // ∃ relayed, normalizeClusterPermissions relayed = .ok permissions}

/-- Whatever a text is, its normalisation names no inherited member as the resource. -/
theorem ruleAllows_returns (rule : Str) {resource : Str} (hname : resource ∉ prototypeNames) (operation scope : Str) :
    ∃ allowed, ruleAllows (normalizeRule rule) resource operation scope = .ok allowed := by
  have hpair : ∀ granted requested : Str, ∃ allowed, resourceAllows (.text granted) (.text requested) = .ok allowed :=
    fun granted requested => ⟨_, resourceAllows_text granted requested⟩
  have hread : ∀ {text granted : Str}, (∃ rest, text.splitOn ':' = granted :: rest) → granted ∉ prototypeNames →
      ∃ allowed, ruleAllows text resource operation scope = .ok allowed := by
    rintro text granted ⟨rest, hsplit⟩ hgranted
    unfold ruleAllows
    rw [hsplit, aliasResource_eq hname]
    split
    · rename_i first second third more heq
      cases heq
      split
      · exact ⟨false, rfl⟩
      · obtain ⟨allowed, hallowed⟩ := hpair (canonicalResource granted) (canonicalResource resource)
        rw [aliasResource_eq hgranted, hallowed]
        exact ⟨_, rfl⟩
    · exact ⟨false, rfl⟩
  unfold normalizeRule
  split
  · rename_i first second third more hsplit
    split
    · -- the check leaves such a text out for the same reason
      rename_i hempty
      unfold ruleAllows
      simp only [hsplit, if_pos hempty]
      exact ⟨false, rfl⟩
    · have hcolon : ':' ∉ first := not_mem_of_mem_splitOn (s := rule) (by simp [hsplit])
      have hresource : ':' ∉ (aliasResource first).printed ∧ (aliasResource first).printed ∉ prototypeNames := by
        by_cases hmem : first ∈ prototypeNames
        · rw [aliasResource_inherited hmem]
          exact ⟨(printed_spec first hmem).1, (printed_spec first hmem).2.2.1⟩
        · rw [aliasResource_eq hmem]
          refine ⟨?_, canonicalResource_not_prototype hmem⟩
          rw [Resource.printed, canonicalResource_eq]
          split
          · decide
          · exact hcolon
      have hjoin : [':'].intercalate [(aliasResource first).printed, second, third] =
          (aliasResource first).printed ++ ':' :: (second ++ ':' :: third) := by simp [List.intercalate_cons_cons]
      have hhead : ∃ rest, ([':'].intercalate [(aliasResource first).printed, second, third]).splitOn ':' =
          (aliasResource first).printed :: rest := by
        rw [hjoin, List.splitOn_append_cons_self, List.splitOn_eq_singleton hresource.1]
        exact ⟨_, rfl⟩
      exact hread hhead hresource.2
  · rename_i hshort
    refine ⟨false, ?_⟩
    unfold ruleAllows
    split
    · rename_i first second third more hsplit
      exact absurd hsplit (hshort first second third more)
    · rfl

theorem someRuleAllows_returns {resource operation scope : Str} : ∀ {rules : List Str},
    (∀ rule ∈ rules, ∃ allowed, ruleAllows rule resource operation scope = .ok allowed) →
      ∃ allowed, someRuleAllows resource operation scope rules = .ok allowed
  | [], _ => ⟨false, rfl⟩
  | rule :: rules, h => by
    obtain ⟨hrule, hrules⟩ := List.forall_mem_cons.1 h
    obtain ⟨first, hfirst⟩ := hrule
    obtain ⟨rest, hrest⟩ := someRuleAllows_returns hrules
    rw [someRuleAllows, hfirst, Except.ok_bind]
    cases first with
    | true => exact ⟨true, rfl⟩
    | false => exact ⟨rest, hrest⟩

theorem normalizeAssignment_eq {assignment : Option Assignment} {result : Assignment}
    (h : normalizeClusterPermissionAssignment assignment = .ok result) : ∃ rules legacy,
      legacyRules result.actions = .ok legacy ∧ legacy ⊆ rules ∧
        result.rules = sort (rules.dedup.map normalizeRule) := by
  obtain ⟨legacy, hlegacy, h⟩ := Except.bind_eq_ok.1 h
  cases h
  exact ⟨_, legacy, hlegacy, List.subset_append_right _ _, rfl⟩

/-- **The check returns** on normalised permissions, unless it is asked for the name of a member. -/
theorem hasRoutePermission_returns (permissions : NormalizedPermissions) {resource : Str}
    (hname : resource ∉ prototypeNames)
    (operation scope : Str) : ∃ allowed, hasRoutePermission permissions.val resource operation scope = .ok allowed := by
  obtain ⟨permissions, relayed, h⟩ := permissions
  obtain ⟨merged, hmerged, h⟩ := Except.bind_eq_ok.1 h
  obtain ⟨policy, -, h⟩ := Except.bind_eq_ok.1 h
  obtain ⟨custom, -, h⟩ := Except.bind_eq_ok.1 h
  cases h
  obtain ⟨rules, legacy, hlegacy, hsub, hsort⟩ := normalizeAssignment_eq hmerged
  rw [hasRoutePermission, routeRules]
  change ∃ allowed, ((if merged.rules = [] then legacyRules merged.actions else .ok merged.rules) >>= _) = .ok allowed
  split
  · rename_i hempty
    -- the actions were expanded before, to no rule at all
    have hnil : legacy = [] := by
      refine List.eq_nil_iff_forall_not_mem.2 fun rule hrule => ?_
      have hmem : normalizeRule rule ∈ merged.rules :=
        hsort ▸ mem_sort.2 (List.mem_map_of_mem (List.mem_dedup.2 (hsub hrule)))
      rw [hempty] at hmem
      cases hmem
    rw [hlegacy, hnil]
    exact ⟨false, rfl⟩
  · rw [Except.ok_bind]
    refine someRuleAllows_returns fun rule hrule => ?_
    rw [hsort] at hrule
    obtain ⟨text, -, rfl⟩ := List.mem_map.1 (mem_sort.1 hrule)
    exact ruleAllows_returns text hname operation scope

end SlurmWeb
