import SlurmWeb.Lib.Strings
import SlurmWeb.Lib.Dict
import SlurmWeb.Lib.RuleCover
import SlurmWeb.Lib.Except

/-!
# `resource:operation:scope` rules (slurmweb/permission_rules.py)

Rules travel as strings (in the role table, the permission map and the HTTP payloads) and are
parsed again at every check. `PermissionRule` is what `normalize_permission_rule` accepts, with
the facts the parser establishes as fields; `text` is the string it returns.

| here | there |
| --- | --- |
| `normalizePermissionRule`       | `normalize_permission_rule` (:190) |
| `sortPermissionRules`           | `sort_permission_rules` (:207) |
| `permissionRuleAllows`, `permissionRulesAllow` | :221, :239 |
| `legacyActionsToRules`          | `legacy_actions_to_rules` (:291) |
| `permissionRulesToLegacyActions`| `permission_rules_to_legacy_actions` (:302) |

* `normalize_text` — a normalised rule is a fixed point of the parser.
* `permissionRulesAllow_ok` — on valid rules the check never raises and is `any`.
-/

namespace SlurmWeb

open Strings

/-! ## Operations, scopes and aliases (:12-16) -/

/-- `PERMISSION_OPERATIONS`; `any` is `"*"`. -/
inductive Operation
  | view | edit | delete | any
deriving DecidableEq, Repr

/-- `PERMISSION_SCOPES`; `any` is `"*"`. -/
inductive Scope
  | any | self
deriving DecidableEq, Repr

def Operation.text : Operation → Str
  | .view => "view"
  | .edit => "edit"
  | .delete => "delete"
  | .any => "*"

def Scope.text : Scope → Str
  | .any => "*"
  | .self => "self"

def PERMISSION_OPERATIONS : List Operation := [.view, .edit, .delete, .any]

def PERMISSION_SCOPES : List Scope := [.any, .self]

def Operation.ofText (s : Str) : Option Operation := PERMISSION_OPERATIONS.find? (·.text == s)

def Scope.ofText (s : Str) : Option Scope := PERMISSION_SCOPES.find? (·.text == s)

@[simp] theorem Operation.ofText_text (o : Operation) : Operation.ofText o.text = some o := by
  cases o <;> decide

@[simp] theorem Scope.ofText_text (s : Scope) : Scope.ofText s.text = some s := by
  cases s <;> decide

theorem Operation.colon_free (o : Operation) : ':' ∉ o.text := by cases o <;> decide

theorem Scope.colon_free (s : Scope) : ':' ∉ s.text := by cases s <;> decide

def PERMISSION_RESOURCE_ALIASES : Dict Str Str := Dict.ofList [("admin/ldap-cache", "admin/ldap-users")]

/-- `PERMISSION_RESOURCE_ALIASES.get(resource, resource)` -/
def canonicalResource (resource : Str) : Str :=
  (PERMISSION_RESOURCE_ALIASES.get resource).getD resource

theorem canonicalResource_eq (resource : Str) :
    canonicalResource resource =
      if resource = "admin/ldap-cache".toList then "admin/ldap-users".toList else resource := by
  unfold canonicalResource PERMISSION_RESOURCE_ALIASES Dict.ofList
  simp only [Dict.update_cons, Dict.update_nil, Dict.get_set, Dict.get_empty]
  by_cases h : resource = "admin/ldap-cache".toList
  · subst h; rfl
  · rw [if_neg (Ne.symm h), if_neg h]; rfl

theorem canonicalResource_idem (resource : Str) :
    canonicalResource (canonicalResource resource) = canonicalResource resource := by
  rw [canonicalResource_eq, canonicalResource_eq]
  by_cases h : resource = "admin/ldap-cache".toList
  · rw [if_pos h]; decide
  · rw [if_neg h, if_neg h]

/-! ## `normalize_permission_rule` (:190) -/

/-- The `ValueError`s of `normalize_permission_rule`. -/
inductive RuleError
  | rule (rule : Str)
  | operation (operation : Str)
  | scope (scope : Str)
deriving DecidableEq, Repr

def RuleError.message : RuleError → Str
  | .rule r => "Invalid permission rule ".toList ++ r
  | .operation o => "Invalid permission operation ".toList ++ o
  | .scope s => "Invalid permission scope ".toList ++ s

/-- A rule in normal form. -/
structure PermissionRule where
  resource : Str
  operation : Operation
  scope : Scope
  resource_ne : resource ≠ []
  resource_colon : ':' ∉ resource
  resource_head : ∀ c ∈ resource.head?, isSpace c = false
  resource_canonical : canonicalResource resource = resource
deriving DecidableEq

theorem PermissionRule.ext' {r s : PermissionRule} (h1 : r.resource = s.resource)
    (h2 : r.operation = s.operation) (h3 : r.scope = s.scope) : r = s := by
  cases r; cases s; cases h1; cases h2; cases h3; rfl

/-- `f"{resource}:{operation}:{scope}"` -/
def PermissionRule.text (r : PermissionRule) : Str :=
  [':'].intercalate [r.resource, r.operation.text, r.scope.text]

/-- The resource part keeps what `normalize_permission_rule` checked once it is de-aliased. -/
def PermissionRule.ofParts (resource : Str) (operation : Operation) (scope : Scope)
    (hne : resource ≠ []) (hcolon : ':' ∉ resource)
    (hhead : ∀ c ∈ resource.head?, isSpace c = false) : PermissionRule where
  resource := canonicalResource resource
  operation := operation
  scope := scope
  resource_ne := by rw [canonicalResource_eq]; split; decide; exact hne
  resource_colon := by rw [canonicalResource_eq]; split; decide; exact hcolon
  resource_head := by
    rw [canonicalResource_eq]
    split
    · intro c hc
      have : c = 'a' := by simpa [eq_comm] using hc
      subst this; decide
    · exact hhead
  resource_canonical := canonicalResource_idem resource

theorem resource_head_of_split {rule resource : Str} {rest : List Str} (hne : resource ≠ [])
    (h : (strip rule).splitOn ':' = resource :: rest) : ∀ c ∈ resource.head?, isSpace c = false := by
  have hj : [':'].intercalate (resource :: rest) = strip rule := h ▸ List.intercalate_splitOn ':'
  intro c hc
  refine strip_head rule c ?_
  rw [← hj]
  obtain ⟨d, ds, rfl⟩ := List.exists_cons_of_ne_nil hne
  cases rest with
  | nil => simpa using hc
  | cons => simpa [List.intercalate_cons_cons] using hc

/-- `normalize_permission_rule`; the type of the argument already excludes a non-string. -/
def normalizePermissionRule (rule : Str) : Except RuleError PermissionRule :=
  match hsplit : (strip rule).splitOn ':' with
  | [resource, operation, scope] =>
    if hne : resource = [] then .error (.rule rule)
    else
      match Operation.ofText operation with
      | none => .error (.operation operation)
      | some op =>
        match Scope.ofText scope with
        | none => .error (.scope scope)
        | some sc =>
          .ok (.ofParts resource op sc hne
            (not_mem_of_mem_splitOn (s := strip rule) (by simp [hsplit]))
            (resource_head_of_split hne hsplit))
  | _ => .error (.rule rule)

/-- A string `normalize_permission_rule` accepts. -/
def IsRule (rule : Str) : Prop := ∃ r, normalizePermissionRule rule = .ok r

/-- A string it returns. -/
def IsNormalRule (rule : Str) : Prop := ∃ r : PermissionRule, rule = r.text

theorem PermissionRule.trimmed_text (r : PermissionRule) : Trimmed r.text := by
  obtain ⟨c, cs, hc⟩ := List.exists_cons_of_ne_nil r.resource_ne
  have hh := r.resource_head
  rw [hc] at hh
  constructor
  · simpa [PermissionRule.text, List.intercalate_cons_cons, hc] using hh
  · obtain ⟨d, hd, hsp⟩ : ∃ d, r.scope.text.getLast? = some d ∧ isSpace d = false := by
      cases r.scope
      · exact ⟨'*', rfl, rfl⟩
      · exact ⟨'f', rfl, rfl⟩
    have ht : r.text.getLast? = some d := by
      simp [PermissionRule.text, List.intercalate_cons_cons, List.getLast?_append, List.getLast?_cons, hd]
    intro e he
    rw [ht] at he
    exact Option.some.inj he ▸ hsp

theorem PermissionRule.split_text (r : PermissionRule) :
    r.text.splitOn ':' = [r.resource, r.operation.text, r.scope.text] := by
  refine List.splitOn_intercalate ':' ?_ (by simp)
  simp [r.resource_colon, r.operation.colon_free, r.scope.colon_free]

/-- **The round trip of the rule format**: a normalised rule is read back as itself. -/
@[simp] theorem normalize_text (r : PermissionRule) : normalizePermissionRule r.text = .ok r := by
  have hs : (strip r.text).splitOn ':' = [r.resource, r.operation.text, r.scope.text] := by
    rw [strip_eq_self r.trimmed_text, r.split_text]
  unfold normalizePermissionRule
  split
  · rename_i resource operation scope h
    rw [hs] at h
    obtain ⟨rfl, rfl, rfl, -⟩ : r.resource = resource ∧ r.operation.text = operation ∧
        r.scope.text = scope ∧ True := by simpa using h
    simp only [r.resource_ne, dite_false, Operation.ofText_text, Scope.ofText_text]
    congr 1
    exact PermissionRule.ext' r.resource_canonical rfl rfl
  · rename_i h
    exact absurd hs (h _ _ _)

theorem IsNormalRule.isRule {rule : Str} : IsNormalRule rule → IsRule rule
  | ⟨r, h⟩ => ⟨r, h ▸ normalize_text r⟩

theorem isNormalRule_iff {rule : Str} :
    (normalizePermissionRule rule).toOption.map PermissionRule.text = some rule ↔ IsNormalRule rule := by
  constructor
  · intro h
    obtain ⟨r, -, hr⟩ := Option.map_eq_some_iff.1 h
    exact ⟨r, hr.symm⟩
  · rintro ⟨r, rfl⟩
    rw [normalize_text]
    rfl

instance : DecidablePred IsNormalRule := fun _ => decidable_of_iff _ isNormalRule_iff

theorem PermissionRule.text_injective {r s : PermissionRule} (h : r.text = s.text) : r = s := by
  have := normalize_text r
  rw [h, normalize_text] at this
  exact (Except.ok.inj this).symm

/-! ## Matching (:211-251) -/

/-- `_resource_matches` (:211) -/
def resourceMatches (granted requested : Str) : Bool :=
  if granted = "*".toList then true
  else if granted = requested then true
  else if "/*".toList.isSuffixOf granted then granted.dropLast.isPrefixOf requested
  else false

/-- The `operation_allowed` branches of `permission_rule_allows` (:223-228): `edit` and `delete`
imply `view`. -/
def operationAllowed (granted : Operation) (requested : Str) : Bool :=
  if granted = .any then true
  else if requested = "view".toList then [Operation.view, .edit, .delete].contains granted
  else granted.text == requested

def PermissionRule.allows (r : PermissionRule) (resource operation scope : Str) : Bool :=
  resourceMatches r.resource resource && operationAllowed r.operation operation &&
    (r.scope == .any || r.scope.text == scope)

/-- `permission_rule_allows` (:221) -/
def permissionRuleAllows (rule resource operation scope : Str) : Except RuleError Bool := do
  let granted ← normalizePermissionRule rule
  return granted.allows resource operation scope

/-- `permission_rules_allow` (:239): the first rule that allows the request ends the loop. -/
def permissionRulesAllow : List Str → Str → Str → Str → Except RuleError Bool
  | [], _, _, _ => return false
  | rule :: rules, resource, operation, scope => do
    if ← permissionRuleAllows rule resource operation scope then return true
    else permissionRulesAllow rules resource operation scope

/-- `sort_permission_rules` (:207) -/
def sortPermissionRules (rules : List Str) : Except RuleError (List Str) := do
  let normalized ← rules.mapM normalizePermissionRule
  return sortedSet (normalized.map PermissionRule.text)

/-! ## The rules a list of strings stands for -/

/-- The rules the strings of a list parse to. -/
def ruleSet (rules : List Str) : Set PermissionRule := {r | ∃ s ∈ rules, normalizePermissionRule s = .ok r}

def AllRules (rules : List Str) : Prop := ∀ s ∈ rules, IsRule s

theorem ruleSet_append (a b : List Str) : ruleSet (a ++ b) = ruleSet a ∪ ruleSet b := by
  ext r
  simp only [ruleSet, List.mem_append, or_and_right, exists_or, Set.mem_ofPred_eq, Set.mem_union]

theorem AllRules.append {a b : List Str} (ha : AllRules a) (hb : AllRules b) : AllRules (a ++ b) :=
  fun s hs => (List.mem_append.1 hs).elim (ha s) (hb s)

theorem ruleSet_congr {a b : List Str} (h : ∀ s, s ∈ a ↔ s ∈ b) : ruleSet a = ruleSet b := by
  ext r
  simp only [ruleSet, h]

theorem mem_ruleSet_cons {rule : Str} {r : PermissionRule}
    (hr : normalizePermissionRule rule = .ok r) (rules : List Str) (r' : PermissionRule) :
    r' ∈ ruleSet (rule :: rules) ↔ r' = r ∨ r' ∈ ruleSet rules := by
  constructor
  · rintro ⟨s, hs, h⟩
    rcases List.mem_cons.1 hs with rfl | hs
    · exact .inl (Except.ok.inj (h.symm.trans hr))
    · exact .inr ⟨s, hs, h⟩
  · rintro (rfl | ⟨s, hs, h⟩)
    · exact ⟨rule, by simp, hr⟩
    · exact ⟨s, by simp [hs], h⟩

/-- On valid rules `permission_rules_allow` never raises, and answers whether a rule allows. -/
theorem permissionRulesAllow_ok (resource operation scope : Str) :
    ∀ rules : List Str, AllRules rules → ∃ b, permissionRulesAllow rules resource operation scope = .ok b ∧
      (b = true ↔ ∃ r ∈ ruleSet rules, r.allows resource operation scope = true)
  | [], _ => ⟨false, rfl, by simp [ruleSet]⟩
  | rule :: rules, h => by
    obtain ⟨r, hr⟩ := h rule (by simp)
    obtain ⟨b, hb, hiff⟩ := permissionRulesAllow_ok resource operation scope
      rules fun s hs => h s (by simp [hs])
    have hset := mem_ruleSet_cons hr rules
    by_cases ha : r.allows resource operation scope = true
    · refine ⟨true, ?_, by simpa using ⟨r, (hset r).2 (.inl rfl), ha⟩⟩
      simp [permissionRulesAllow, permissionRuleAllows, hr, ha]
    · refine ⟨b, ?_, ?_⟩
      · simp [permissionRulesAllow, permissionRuleAllows, hr, ha, hb]
      · simp only [hiff, hset, or_and_right, exists_or, exists_eq_left, ha, false_or, Bool.false_eq_true]

theorem permissionRulesAllow_true_iff {rules : List Str} (h : AllRules rules) {resource operation scope : Str} :
    permissionRulesAllow rules resource operation scope = .ok true ↔
      ∃ r ∈ ruleSet rules, r.allows resource operation scope = true := by
  obtain ⟨b, hb, hiff⟩ := permissionRulesAllow_ok resource operation scope rules h
  rw [hb, Except.ok.injEq, hiff]

theorem mem_of_mapM_normalize {rules : List Str} {rs : List PermissionRule}
    (h : rules.mapM normalizePermissionRule = .ok rs) (r : PermissionRule) : r ∈ rs ↔ r ∈ ruleSet rules := by
  rw [Except.mapM_eq_ok] at h
  induction h with
  | nil => simp [ruleSet]
  | cons hr _ ih => rw [mem_ruleSet_cons hr, List.mem_cons, ih]

/-- `sort_permission_rules` on valid rules: every result is normal, and they stand for the same
rules. -/
theorem sortPermissionRules_ok {rules : List Str} (h : AllRules rules) :
    ∃ out, sortPermissionRules rules = .ok out ∧ (∀ s ∈ out, IsNormalRule s) ∧ ruleSet out = ruleSet rules := by
  obtain ⟨rs, hrs⟩ := Except.returns_mapM.2 h
  refine ⟨sortedSet (rs.map PermissionRule.text), by simp [sortPermissionRules, hrs], ?_, ?_⟩
  · intro s hs
    obtain ⟨r, -, rfl⟩ := List.mem_map.1 (mem_sortedSet.1 hs)
    exact ⟨r, rfl⟩
  · ext r
    rw [← mem_of_mapM_normalize hrs r]
    simp only [ruleSet, mem_sortedSet, List.mem_map, Set.mem_ofPred_eq]
    constructor
    · rintro ⟨_, ⟨r', hr', rfl⟩, h'⟩
      rw [normalize_text, Except.ok.injEq] at h'
      exact h' ▸ hr'
    · exact fun hr => ⟨r.text, ⟨r, hr, rfl⟩, normalize_text r⟩

theorem allRules_of_isOk {rules : List Str} (h : (rules.mapM normalizePermissionRule).isOk = true) : AllRules rules :=
  Except.returns_mapM.1 (Except.isOk_iff.1 h)

theorem AllRules.of_normal {rules : List Str} (h : ∀ s ∈ rules, IsNormalRule s) : AllRules rules :=
  fun s hs => (h s hs).isRule

/-! ## The language of rules -/

structure Request where
  resource : Str
  operation : Str
  scope : Str
deriving DecidableEq, Repr

theorem resourceMatches_iff {granted requested : Str} : resourceMatches granted requested = true ↔
    granted = "*".toList ∨ granted = requested ∨ ∃ p, granted = p ++ "/*".toList ∧ p ++ "/".toList <+: requested := by
  unfold resourceMatches
  by_cases h1 : granted = "*".toList
  · simp [h1]
  by_cases h2 : granted = requested
  · simp [h2]
  rw [if_neg h1, if_neg h2]
  simp only [h1, h2, false_or]
  constructor
  · intro h
    split at h
    · rename_i hs
      obtain ⟨p, rfl⟩ := List.isSuffixOf_iff_suffix.1 hs
      refine ⟨p, rfl, ?_⟩
      have hd : (p ++ "/*".toList).dropLast = p ++ "/".toList := by
        rw [List.dropLast_append_of_ne_nil (by decide)]; rfl
      rwa [hd, List.isPrefixOf_iff_prefix] at h
    · exact absurd h (by decide)
  · rintro ⟨p, rfl, hp⟩
    have hd : (p ++ "/*".toList).dropLast = p ++ "/".toList := by
      rw [List.dropLast_append_of_ne_nil (by decide)]; rfl
    rw [if_pos (List.isSuffixOf_iff_suffix.2 ⟨p, rfl⟩), hd]
    exact List.isPrefixOf_iff_prefix.2 hp

/-- A prefix of `q*` that ends in `/` is a prefix of `q`. -/
theorem prefix_slash {p q : Str} (h : p ++ ['/'] <+: q ++ ['*']) : p ++ ['/'] <+: q := by
  rcases List.prefix_concat_iff.1 h with h | h
  · have := congrArg List.getLast? h
    rw [List.getLast?_concat, List.getLast?_concat] at this
    exact absurd this (by decide)
  · exact h

theorem resourceMatches_trans {s r q : Str} (hs : resourceMatches s r = true) (hr : resourceMatches r q = true) :
    resourceMatches s q = true := by
  rw [resourceMatches_iff] at *
  rcases hs with hs | rfl | ⟨p, rfl, hp⟩
  · exact .inl hs
  · exact hr
  · refine .inr (.inr ⟨p, rfl, ?_⟩)
    rcases hr with rfl | rfl | ⟨p', rfl, hp'⟩
    · -- `p/` is no prefix of `*`
      exact absurd (prefix_slash (q := []) hp) (by simp)
    · exact hp
    · have : p ++ ['/'] <+: (p' ++ ['/']) ++ ['*'] := by simpa using hp
      exact (prefix_slash this).trans hp'

theorem operationAllowed_iff {s : Operation} {q : Str} (hq : q ≠ "view".toList) :
    operationAllowed s q = true ↔ s = .any ∨ s.text = q := by
  rw [operationAllowed, if_neg hq]
  by_cases hany : s = .any
  · exact iff_of_true (if_pos hany) (.inl hany)
  · rw [if_neg hany, beq_iff_eq]
    exact (or_iff_right hany).symm

theorem operationAllowed_trans {s r : Operation} {q : Str} (hs : operationAllowed s r.text = true)
    (hr : operationAllowed r q = true) : operationAllowed s q = true := by
  by_cases hq : q = "view".toList
  · subst hq; cases s <;> cases r <;> revert hs hr <;> decide
  · rcases (operationAllowed_iff hq).1 hr with rfl | rfl
    · have hany : s = .any := by cases s <;> revert hs <;> decide
      exact (operationAllowed_iff hq).2 (.inl hany)
    · exact hs

theorem scope_trans {s r : Scope} {q : Str} (hs : (s == .any || s.text == r.text) = true)
    (hr : (r == .any || r.text == q) = true) : (s == .any || s.text == q) = true := by
  cases s <;> cases r <;> simp_all [Scope.text]

/-- Rules read as the largest request they grant. -/
def permissionLanguage : RuleLanguage PermissionRule Request where
  allows r q := r.allows q.resource q.operation q.scope = true
  ask r := ⟨r.resource, r.operation.text, r.scope.text⟩
  allows_ask r := by
    have h1 : resourceMatches r.resource r.resource = true := resourceMatches_iff.2 (.inr (.inl rfl))
    have h2 : operationAllowed r.operation r.operation.text = true := by cases r.operation <;> decide
    have h3 : (r.scope == .any || r.scope.text == r.scope.text) = true := by simp
    simp only [PermissionRule.allows, h1, h2, h3, Bool.and_self]
  trans s r q hs hr := by
    simp only [PermissionRule.allows, Bool.and_eq_true] at *
    exact ⟨⟨resourceMatches_trans hs.1.1 hr.1.1, operationAllowed_trans hs.1.2 hr.1.2⟩, scope_trans hs.2 hr.2⟩

end SlurmWeb
