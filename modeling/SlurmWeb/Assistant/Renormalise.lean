import SlurmWeb.Assistant.ModelValidation

/-!
# A row normalised again (slurmweb/ai/service.py:118)

An update normalises the row it has read again (:361), and compares the result with the row
(`_connection_fields_changed`, :256). The normaliser has `value in (None, "")` before `.strip()` (:154): a
text of blanks becomes the empty text, which it takes for none the next time.

* `normalize_stripped` — what the normaliser lets through is stripped, in both modes.
* `normalizeFull_items` — a stripped row normalised again: the same, but for its empty texts.
* `prepareUpdate_eq_ok` — the parts of an update that passes.
* `unchanged_iff` — the rows that compare as unchanged: no empty text, no `nan`.
-/

namespace SlurmWeb.Assistant

open Strings Py Slurmrestd

variable {F : Type}

/-! ## Stripped configurations -/

/-- A required text: stripped, and not empty. -/
structure Filled (s : Str) : Prop where
  strip : strip s = s
  ne_nil : s ≠ []

/-- A text column: none, or stripped. -/
def Stripped (text : Option Str) : Prop := ∀ s, text = some s → strip s = s

/-- The texts as the normaliser leaves them. -/
structure Config.Stripped (c : Config F) : Prop where
  name : Filled c.name
  provider : Filled c.provider
  model : Filled c.model
  displayName : Filled c.displayName
  baseUrl : Assistant.Stripped c.baseUrl
  deployment : Assistant.Stripped c.deployment
  apiVersion : Assistant.Stripped c.apiVersion
  systemPrompt : Assistant.Stripped c.systemPrompt
  enabled : c.Enabled

/-- The checks of the normaliser on a full payload (:134, :186). -/
structure Config.Accepted (c : Config F) : Prop where
  supported : c.provider ∈ supportedProviders
  azure : c.provider = "azure-openai".toList → c.baseUrl.getD [] ≠ [] ∧ c.deployment.getD [] ≠ []

structure Config.Normal (c : Config F) : Prop extends c.Stripped, c.Accepted

/-- An empty text is none. -/
def settle : Option Str → Option Str
  | some [] => none
  | text => text

def Config.settled (c : Config F) : Config F :=
  { c with
    baseUrl := settle c.baseUrl
    deployment := settle c.deployment
    apiVersion := settle c.apiVersion
    systemPrompt := settle c.systemPrompt }

/-- No column has the empty text. -/
def Config.Settled (c : Config F) : Prop := c.settled = c

@[simp] theorem settle_settle (text : Option Str) : settle (settle text) = settle text := by
  cases text with
  | none => rfl
  | some s => cases s <;> rfl

theorem settled_settled (c : Config F) : c.settled.Settled := by
  simp only [Config.Settled, Config.settled, settle_settle]

theorem settle_eq_self {text : Option Str} (h : text ≠ some []) : settle text = text := by
  cases text with
  | none => rfl
  | some s =>
    cases s with
    | nil => exact absurd rfl h
    | cons => rfl

@[simp] theorem settle_getD (text : Option Str) : (settle text).getD [] = text.getD [] := by
  cases text with
  | none => rfl
  | some s => cases s <;> rfl

theorem Stripped.settle {text : Option Str} (h : Stripped text) : Stripped (settle text) := by
  intro s hs
  cases text with
  | none => cases hs
  | some t =>
    cases t with
    | nil => cases hs
    | cons => exact h s hs

theorem Config.Normal.settled {c : Config F} (h : c.Normal) : c.settled.Normal where
  name := h.name
  provider := h.provider
  model := h.model
  displayName := h.displayName
  baseUrl := h.baseUrl.settle
  deployment := h.deployment.settle
  apiVersion := h.apiVersion.settle
  systemPrompt := h.systemPrompt.settle
  enabled := h.enabled
  supported := h.supported
  azure hprovider := by
    simp only [Config.settled, settle_getD]
    exact h.azure hprovider

/-- The state of a default is as it is already. -/
theorem normalizeDefaultState_eq {c : Config F} (h : c.Enabled) : c.normalizeDefaultState = c := by
  have henabled : (c.isDefault || c.enabled) = c.enabled := by
    cases hdefault : c.isDefault with
    | false => rfl
    | true => exact (h hdefault).symm
  have hdefault : (c.enabled && c.isDefault) = c.isDefault := by
    cases hdefault : c.isDefault with
    | false => exact Bool.and_false _
    | true => rw [h hdefault, Bool.and_true]
  rw [Config.normalizeDefaultState, henabled, hdefault]

theorem normalizeDefaultState_normal {c : Config F} (h : c.Normal) : c.normalizeDefaultState = c :=
  normalizeDefaultState_eq h.enabled

theorem Config.Stripped.clear {c : Config F} (h : c.Stripped) : ({ c with isDefault := false } : Config F).Stripped :=
  { h with enabled := nofun }

theorem Config.Normal.clear {c : Config F} (h : c.Normal) : ({ c with isDefault := false } : Config F).Normal :=
  { h.toStripped.clear, h.toAccepted with }

/-! ## What the normaliser lets through -/

/-- A normalised payload, in either mode. -/
structure Updates.Stripped (u : Updates F) : Prop where
  name : ∀ s, u.name = some s → Filled s
  provider : ∀ s, u.provider = some s → Filled s
  model : ∀ s, u.model = some s → Filled s
  displayName : ∀ s, u.displayName = some s → Filled s
  baseUrl : ∀ text, u.baseUrl = some text → Assistant.Stripped text
  deployment : ∀ text, u.deployment = some text → Assistant.Stripped text
  apiVersion : ∀ text, u.apiVersion = some text → Assistant.Stripped text
  systemPrompt : ∀ text, u.systemPrompt = some text → Assistant.Stripped text
  enabled : u.isDefault = some true → u.enabled = some true

section Normaliser

variable [Python F]

theorem requiredField_filled {payload : Value F} {isPartial : Bool} {field : Str} {value : Option Str}
    (h : requiredField payload isPartial field = .ok value) : ∀ s, value = some s → Filled s := by
  rintro s rfl
  obtain ⟨has, -, h⟩ := Except.bind_eq_ok.1 h
  cases has with
  | false => cases isPartial <;> cases h
  | true =>
    obtain ⟨raw, -, h⟩ := Except.bind_eq_ok.1 h
    dsimp only at h
    split at h
    · cases h
    · by_cases hempty : raw.strippedText = []
      · rw [if_pos hempty] at h
        cases h
      · rw [if_neg hempty] at h
        cases h
        exact ⟨strip_strip _, hempty⟩

omit [Python F] in
/-- What an optional field has read, if it was read. -/
theorem optionalField_some {α : Type} {payload : Value F} {isPartial : Bool} {field : Str}
    {read : Except ConfigError α} {a : α}
    (h : optionalField payload isPartial field read = .ok (some a)) : read = .ok a := by
  obtain ⟨has, -, h⟩ := Except.bind_eq_ok.1 h
  split at h
  · cases read with
    | error => cases h
    | ok =>
      cases h
      rfl
  · cases h

theorem optionalText_some {payload : Value F} {isPartial : Bool} {field : Str} {text : Option Str}
    (h : optionalText payload isPartial field = .ok (some text)) : ∃ value, payloadGet payload field = .ok value ∧
      text = if value.isBlank then none else some (strip value.toStr) := by
  obtain ⟨value, hvalue, hread⟩ := Except.bind_eq_ok.1 (optionalField_some h)
  cases hread
  exact ⟨value, hvalue, rfl⟩

theorem optionalText_stripped {payload : Value F} {isPartial : Bool} {field : Str} {value : Option (Option Str)}
    (h : optionalText payload isPartial field = .ok value) : ∀ text, value = some text → Stripped text := by
  rintro text rfl s rfl
  obtain ⟨raw, -, htext⟩ := optionalText_some h
  split at htext
  · cases htext
  · cases htext
    exact strip_strip _

/-- What a payload was normalised to, field by field. -/
structure Updates.ReadFrom (u : Updates F) (payload : Value F) (isPartial : Bool) : Prop where
  name : requiredField payload isPartial "name" = .ok u.name
  provider : requiredField payload isPartial "provider" = .ok u.provider
  model : requiredField payload isPartial "model" = .ok u.model
  displayName : requiredField payload isPartial "display_name" = .ok u.displayName
  baseUrl : optionalText payload isPartial "base_url" = .ok u.baseUrl
  deployment : optionalText payload isPartial "deployment" = .ok u.deployment
  apiVersion : optionalText payload isPartial "api_version" = .ok u.apiVersion
  systemPrompt : optionalText payload isPartial "system_prompt" = .ok u.systemPrompt
  requestTimeout :
    optionalNumber payload isPartial "request_timeout" "request_timeout must be an integer"
      Value.toInt = .ok u.requestTimeout
  temperature : optionalNumber payload isPartial "temperature" "temperature must be numeric"
    Value.toFloat = .ok u.temperature
  extraOptions : optionalOptions payload isPartial = .ok u.extraOptions
  enabled : u.isDefault = some true → u.enabled = some true
  accepted : ∃ chosen, chosenProvider payload u.provider = .ok chosen ∧
    checkAzure payload isPartial chosen u.baseUrl u.deployment = .ok ()

theorem readFrom_of_ok {payload : Value F} {isPartial : Bool} {u : Updates F}
    (h : normalizeModelConfigPayload payload isPartial = .ok u) : u.ReadFrom (payload.or (.dict [])) isPartial := by
  simp only [normalizeModelConfigPayload, Except.bind_eq_ok, Except.pure_eq_ok] at h
  obtain ⟨name, hname, provider, hprovider, model, hmodel, displayName, hdisplay, chosen, hchosen,
      enabled, -, isDefault, -, _, -,
    baseUrl, hbase, deployment, hdeployment, apiVersion, hversion, systemPrompt, hprompt, requestTimeout,
      htimeout, temperature,
    htemperature, extraOptions, hoptions, ⟨⟩, hazure, h⟩ := h
  cases h
  exact ⟨hname, hprovider, hmodel, hdisplay, hbase, hdeployment, hversion, hprompt, htimeout, htemperature, hoptions,
    fun hdefault => if_pos hdefault, chosen, hchosen, hazure⟩

/-- What the normaliser lets through is stripped. -/
theorem normalize_stripped {payload : Value F} {isPartial : Bool} {u : Updates F}
    (h : normalizeModelConfigPayload payload isPartial = .ok u) : u.Stripped := by
  have hread := readFrom_of_ok h
  constructor
  · exact requiredField_filled hread.name
  · exact requiredField_filled hread.provider
  · exact requiredField_filled hread.model
  · exact requiredField_filled hread.displayName
  · exact optionalText_stripped hread.baseUrl
  · exact optionalText_stripped hread.deployment
  · exact optionalText_stripped hread.apiVersion
  · exact optionalText_stripped hread.systemPrompt
  · exact hread.enabled

/-- A full payload that passes has its required fields, and the others if it was asked for them. -/
structure Updates.Gives (u : Updates F) (c : Config F) : Prop where
  name : u.name = some c.name
  provider : u.provider = some c.provider
  model : u.model = some c.model
  displayName : u.displayName = some c.displayName
  enabled : u.enabled = some c.enabled
  isDefault : u.isDefault = some c.isDefault
  baseUrl : c.baseUrl = u.baseUrl.getD none
  deployment : c.deployment = u.deployment.getD none
  apiVersion : c.apiVersion = u.apiVersion.getD none
  systemPrompt : c.systemPrompt = u.systemPrompt.getD none
  temperature : c.temperature = u.temperature.getD none

omit [Python F] in
theorem gives_of_complete {u : Updates F} {c : Config F} (h : u.complete = .ok c) : u.Gives c := by
  rw [Updates.complete] at h
  split at h
  next hname hprovider hmodel hdisplay henabled hdefault hsort =>
    cases h
    exact ⟨hname, hprovider, hmodel, hdisplay, henabled, hdefault, rfl, rfl, rfl, rfl, rfl⟩
  next => cases h

theorem checkProvider_str {provider : Str} {chosen : Option Str}
    (h : checkProvider (.str provider : Value F) = .ok chosen) :
    provider ∈ supportedProviders ∧ chosen = some provider := by
  rw [checkProvider] at h
  split at h
  next hmem =>
    cases h
    exact ⟨hmem, rfl⟩
  next => cases h

omit [Python F] in
theorem requireAzure_full {payload : Value F} {field : Str} {value : Option (Option Str)}
    (h : requireAzure payload false field value = .ok ()) : (value.getD none).getD [] ≠ [] := by
  intro hempty
  rw [requireAzure] at h
  obtain ⟨has, -, h⟩ := Except.bind_eq_ok.1 h
  rw [if_pos hempty] at h
  cases h

omit [Python F] in
theorem checkAzure_full {payload : Value F} {baseUrl deployment : Option (Option Str)}
    (h : checkAzure payload false (some "azure-openai".toList) baseUrl deployment = .ok ()) :
    (baseUrl.getD none).getD [] ≠ [] ∧ (deployment.getD none).getD [] ≠ [] := by
  rw [checkAzure, if_pos rfl] at h
  obtain ⟨⟨⟩, hbase, hdeployment⟩ := Except.bind_eq_ok.1 h
  exact ⟨requireAzure_full hbase, requireAzure_full hdeployment⟩

/-- The provider of a full payload that passes, and what Azure requires. -/
theorem normalize_accepted {payload : Value F} {u : Updates F} {provider : Str}
    (h : normalizeModelConfigPayload payload false = .ok u) (hprovider : u.provider = some provider) :
    provider ∈ supportedProviders ∧ (provider = "azure-openai".toList →
      (u.baseUrl.getD none).getD [] ≠ [] ∧ (u.deployment.getD none).getD [] ≠ []) := by
  obtain ⟨chosen, hchosen, hazure⟩ := (readFrom_of_ok h).accepted
  rw [hprovider] at hchosen
  obtain ⟨hsupported, rfl⟩ := @checkProvider_str F _ _ _ hchosen
  refine ⟨hsupported, ?_⟩
  rintro rfl
  exact checkAzure_full hazure

theorem normalizeFull_normal {payload : Value F} {c : Config F} (h : normalizeFull payload = .ok c) : c.Normal := by
  obtain ⟨u, hu, hcomplete⟩ := Except.bind_eq_ok.1 h
  have hs := normalize_stripped hu
  have hgives := gives_of_complete hcomplete
  obtain ⟨hsupported, hazure⟩ := normalize_accepted hu hgives.provider
  have htext : ∀ {value : Option (Option Str)} {text : Option Str}, text = value.getD none →
      (∀ t, value = some t → Assistant.Stripped t) → Assistant.Stripped text := by
    intro value text htext hvalue
    subst htext
    cases value with
    | none => exact nofun
    | some t => exact hvalue t rfl
  constructor
  · constructor
    · exact hs.name _ hgives.name
    · exact hs.provider _ hgives.provider
    · exact hs.model _ hgives.model
    · exact hs.displayName _ hgives.displayName
    · exact htext hgives.baseUrl hs.baseUrl
    · exact htext hgives.deployment hs.deployment
    · exact htext hgives.apiVersion hs.apiVersion
    · exact htext hgives.systemPrompt hs.systemPrompt
    · intro hdefault
      have henabled := hs.enabled (by rw [hgives.isDefault, hdefault])
      rw [hgives.enabled, Option.some.injEq] at henabled
      exact henabled
  · constructor
    · exact hsupported
    · rw [hgives.baseUrl, hgives.deployment]
      exact hazure

omit [Python F] in
/-- A payload over a stripped configuration, once the state of the default is settled. -/
theorem Updates.Stripped.over {u : Updates F} (h : u.Stripped) {c : Config F} (hc : c.Stripped) :
    (u.over c).normalizeDefaultState.Stripped := by
  have hrequired : ∀ {value : Option Str} {s : Str}, (∀ s, value = some s → Filled s) → Filled s →
      Filled (value.getD s) := by
    intro value s hvalue hs
    cases value with
    | none => exact hs
    | some t => exact hvalue t rfl
  have htext : ∀ {value : Option (Option Str)} {text : Option Str}, (∀ t, value = some t → Assistant.Stripped t) →
      Assistant.Stripped text → Assistant.Stripped (value.getD text) := by
    intro value text hvalue ht
    cases value with
    | none => exact ht
    | some t => exact hvalue t rfl
  constructor
  · exact hrequired h.name hc.name
  · exact hrequired h.provider hc.provider
  · exact hrequired h.model hc.model
  · exact hrequired h.displayName hc.displayName
  · exact htext h.baseUrl hc.baseUrl
  · exact htext h.deployment hc.deployment
  · exact htext h.apiVersion hc.apiVersion
  · exact htext h.systemPrompt hc.systemPrompt
  · exact normalizeDefaultState_enabled _

/-! ## A row normalised again -/

theorem requiredField_str {items : Arguments F} {field s : Str} (hhas : payloadHas (.dict items) field = .ok true)
    (hget : payloadGet (.dict items) field = .ok (.str s)) (h : Filled s) :
    requiredField (.dict items) false field = .ok (some s) := by
  have htext : (Value.str s : Value F).strippedText = s := by
    have htruthy : (Value.str s : Value F).truthy = true := by
      simpa [Value.truthy] using h.ne_nil
    rw [Value.strippedText, Value.or, if_pos htruthy]
    exact h.strip
  rw [requiredField, hhas, hget]
  simp only [Except.ok_bind, htext, if_true, Bool.not_false, Bool.true_and, decide_eq_true_eq,
    if_neg h.ne_nil, Except.pure_eq_ok]

theorem optionalText_textValue {items : Arguments F} {field : Str} {text : Option Str} {has : Bool}
    (hhas : payloadHas (.dict items) field = .ok has) (hget : payloadGet (.dict items) field = .ok (textValue text))
    (h : Stripped text) : optionalText (.dict items) false field = .ok (some (settle text)) := by
  have hread : (if (textValue text : Value F).isBlank then none else some (strip (textValue text : Value F).toStr)) =
      settle text := by
    cases text with
    | none => rfl
    | some s =>
      cases s with
      | nil => rfl
      | cons c s =>
        show some (strip (c :: s)) = some (c :: s)
        rw [h _ rfl]
  rw [optionalText, optionalField, hhas, hget]
  simp only [Except.ok_bind, Bool.not_false, Bool.or_true, if_true, Except.pure_eq_ok, hread]
  rfl

omit [Python F] in
/-- A number column is read as it is. -/
theorem optionalNumber_value {α : Type} {items : Arguments F} {field message : Str}
    (convert : Value F → Except Py.Error α)
    (toValue : α → Value F) (hconvert : ∀ a, convert (toValue a) = .ok a) (hblank : ∀ a, (toValue a).isBlank = false)
    {number : Option α} {has : Bool} (hhas : payloadHas (.dict items) field = .ok has)
    (hget : payloadGet (.dict items) field = .ok ((number.map toValue).getD .none)) :
    optionalNumber (.dict items) false field message convert = .ok (some number) := by
  rw [optionalNumber, optionalField, hhas, hget]
  cases number with
  | none =>
    simp only [Except.ok_bind, Bool.not_false, Bool.or_true, if_true]
    rfl
  | some a =>
    simp only [Except.ok_bind, Bool.not_false, Bool.or_true, if_true, Option.map_some,
      Option.getD_some, hblank, hconvert]
    rfl

theorem int_or_zero (n : Int) : (Value.int n : Value F).or (.int 0) = .int n := by
  rw [Value.or]
  split
  · rfl
  next hzero =>
    have hn : n = 0 := by simpa [Value.truthy] using hzero
    rw [hn]

/-- **A stripped row normalised again** is the same, but for its empty texts, if it passes. -/
theorem normalizeFull_items {c : Config F} (h : c.Stripped) :
    normalizeFull (.dict c.items) = do
      let chosen ← checkProvider (.str c.provider : Value F)
      checkAzure (.dict c.items) false chosen (some (settle c.baseUrl)) (some (settle c.deployment))
      return c.settled := by
  have hname : requiredField (.dict c.items) false "name" = .ok (some c.name) := requiredField_str rfl rfl h.name
  have hprovider : requiredField (.dict c.items) false "provider" = .ok (some c.provider) :=
    requiredField_str rfl rfl h.provider
  have hmodel : requiredField (.dict c.items) false "model" = .ok (some c.model) := requiredField_str rfl rfl h.model
  have hdisplay : requiredField (.dict c.items) false "display_name" = .ok (some c.displayName) :=
    requiredField_str rfl rfl h.displayName
  have hbase : optionalText (.dict c.items) false "base_url" = .ok (some (settle c.baseUrl)) :=
    optionalText_textValue rfl rfl h.baseUrl
  have hdeployment : optionalText (.dict c.items) false "deployment" = .ok (some (settle c.deployment)) :=
    optionalText_textValue rfl rfl h.deployment
  have hversion : optionalText (.dict c.items) false "api_version" = .ok (some (settle c.apiVersion)) :=
    optionalText_textValue rfl rfl h.apiVersion
  have hprompt : optionalText (.dict c.items) false "system_prompt" = .ok (some (settle c.systemPrompt)) :=
    optionalText_textValue rfl rfl h.systemPrompt
  have hsort : (optionalField (.dict c.items) false "sort_order" do
      orInvalid "sort_order must be an integer"
        ((← payloadGetOr (.dict c.items) "sort_order" (.int 0)).or (.int 0)).toInt) =
        .ok (some c.sortOrder) := by
    show (some <$> orInvalid "sort_order must be an integer" ((Value.int c.sortOrder : Value F).or (.int 0)).toInt) = _
    rw [int_or_zero]
    rfl
  have htimeout : optionalNumber (.dict c.items) false "request_timeout"
      "request_timeout must be an integer" Value.toInt = .ok (some c.requestTimeout) :=
    optionalNumber_value Value.toInt Value.int (fun _ => rfl) (fun _ => rfl) rfl rfl
  have htemperature : optionalNumber (.dict c.items) false "temperature" "temperature must be numeric" Value.toFloat =
      .ok (some c.temperature) :=
    optionalNumber_value Value.toFloat Value.float (fun _ => rfl) (fun _ => rfl) rfl rfl
  have hoptions : optionalOptions (.dict c.items) false = .ok (some c.extraOptions) := by rfl
  have henabled : optionalField (.dict c.items) false "enabled"
      (normalizeBool true <$> payloadGet (.dict c.items) "enabled") =
      .ok (some c.enabled) := by rfl
  have hdefault : optionalField (.dict c.items) false "is_default"
      (normalizeBool false <$> payloadGet (.dict c.items) "is_default") =
      .ok (some c.isDefault) := by rfl
  have hor : (Value.dict c.items).or (.dict []) = .dict c.items := rfl
  rw [normalizeFull, normalizeModelConfigPayload]
  simp only [hor, hname, hprovider, hmodel, hdisplay, hbase, hdeployment, hversion, hprompt, hsort,
    htimeout, htemperature, hoptions, henabled, hdefault, Except.ok_bind, chosenProvider]
  have hkeeps : (if some c.isDefault = some true then some true else some c.enabled) = some c.enabled := by
    split
    next hdefault => rw [h.enabled (Option.some.inj hdefault)]
    next => rfl
  simp only [hkeeps, bind_assoc]
  rfl

theorem normalizeFull_items_settled {c c' : Config F} (h : c.Stripped) (hok : normalizeFull (.dict c.items) = .ok c') :
    c' = c.settled := by
  rw [normalizeFull_items h] at hok
  obtain ⟨chosen, -, hok⟩ := Except.bind_eq_ok.1 hok
  obtain ⟨⟨⟩, -, hok⟩ := Except.bind_eq_ok.1 hok
  cases hok
  rfl

omit [Python F] in
theorem requireAzure_text {items : Arguments F} {field : Str} {text : Option Str} {has : Bool}
    (hhas : payloadHas (.dict items) field = .ok has) (h : text.getD [] ≠ []) :
    requireAzure (.dict items) false field (some text) = .ok () := by
  rw [requireAzure, hhas]
  simp only [Except.ok_bind, Bool.not_false, Bool.true_or, if_true, Option.getD_some, if_neg h, Except.pure_eq_ok]

/-- The rows the normaliser lets through pass again. -/
theorem normalizeFull_normal_items {c : Config F} (h : c.Normal) : normalizeFull (.dict c.items) = .ok c.settled := by
  have hchosen : checkProvider (.str c.provider : Value F) = .ok (some c.provider) := if_pos h.supported
  have hazure : checkAzure (.dict c.items) false (some c.provider) (some (settle c.baseUrl))
      (some (settle c.deployment)) = .ok () := by
    rw [checkAzure]
    split
    next hprovider =>
      obtain ⟨hbase, hdeployment⟩ := h.settled.azure (Option.some.inj hprovider)
      have hrequired : requireAzure (.dict c.items) false "base_url" (some (settle c.baseUrl)) = .ok () :=
        requireAzure_text rfl hbase
      have hrequired' : requireAzure (.dict c.items) false "deployment" (some (settle c.deployment)) = .ok () :=
        requireAzure_text rfl hdeployment
      rw [hrequired, hrequired']
      rfl
    next => rfl
  rw [normalizeFull_items h.toStripped, hchosen, Except.ok_bind, hazure]
  rfl

/-! ## What an update prepares -/

variable [DecidableEq F]

/-- The parts of an update that passes. -/
theorem prepareUpdate_eq_ok {encrypt : Str → Str} {current : Row F} {payload : Value F} {prepared : StorePayload F}
    (h : prepareUpdate encrypt current payload = .ok prepared) : ∃ updates c secret changed,
      normalizeModelConfigPayload payload true = .ok updates ∧
      normalizeFull (.dict (updates.over current.config).normalizeDefaultState.items) = .ok c ∧
      updatedSecret encrypt current.secret payload = .ok (secret, changed) ∧
      (c.provider = "ollama".toList ∨ secret.ciphertext.getD [] ≠ []) ∧
      prepared = ⟨some c, some secret, if changed || connectionFieldsChanged current.config c then some
        .reset else none⟩ := by
  obtain ⟨updates, hupdates, h⟩ := Except.bind_eq_ok.1 h
  obtain ⟨c, hc, h⟩ := Except.bind_eq_ok.1 h
  obtain ⟨⟨secret, changed⟩, hsecret, h⟩ := Except.bind_eq_ok.1 h
  rw [normalizeDefaultState_normal (normalizeFull_normal hc)] at h
  dsimp only at h
  split at h
  · cases h
  next husable =>
    cases h
    refine ⟨updates, c, secret, changed, hupdates, hc, hsecret, ?_, rfl⟩
    by_contra hnot
    exact husable (not_or.1 hnot |>.imp id not_not.1)

/-- The temperature is a number. -/
def Config.Comparable (c : Config F) : Prop := ∀ x, c.temperature = some x → Python.le x x = true

theorem unchanged_iff (c : Config F) : connectionFieldsChanged c c.settled = false ↔ c.Settled ∧ c.Comparable := by
  have hsettled : c.Settled ↔ c.baseUrl = settle c.baseUrl ∧ c.deployment = settle c.deployment ∧
      c.apiVersion = settle c.apiVersion ∧ c.systemPrompt = settle c.systemPrompt := by
    constructor
    · intro h
      rw [Config.Settled, Config.settled] at h
      rw [← h]
      simp only [settle_settle, and_self]
    · rintro ⟨hbase, hdeployment, hversion, hprompt⟩
      rw [Config.Settled, Config.settled, ← hbase, ← hdeployment, ← hversion, ← hprompt]
  have htemperature : temperatureChanged c.temperature c.temperature = false ↔ c.Comparable := by
    rw [Config.Comparable]
    cases c.temperature with
    | none => simp [temperatureChanged]
    | some x => simp [temperatureChanged]
  have hoptions : (Value.dict c.extraOptions).same (.dict c.extraOptions) = true := Value.same_refl _
  rw [hsettled, ← htemperature]
  simp only [connectionFieldsChanged, Bool.or_eq_false_iff, decide_eq_false_iff_not, not_not, Bool.not_eq_false']
  simp only [Config.settled, hoptions, true_and, and_true]
  tauto

theorem connectionFieldsChanged_congr {previous current current' : Config F} (h : current.Agree current') :
    connectionFieldsChanged previous current = connectionFieldsChanged previous current' := by
  have hoptions : (Value.dict previous.extraOptions).same (.dict current.extraOptions) =
      (Value.dict previous.extraOptions).same (.dict current'.extraOptions) := by
    rw [Bool.eq_iff_iff]
    exact ⟨fun hsame => Value.same_trans hsame h.extraOptions, fun hsame =>
      Value.same_trans hsame (Value.same_symm h.extraOptions)⟩
  simp only [connectionFieldsChanged, h.provider, h.model, h.baseUrl, h.deployment, h.apiVersion,
    h.requestTimeout, h.temperature, h.systemPrompt, hoptions]

theorem Config.Agree.settled {a b : Config F} (h : a.Agree b) : a.settled.Agree b.settled :=
  { h with
    baseUrl := congrArg settle h.baseUrl
    deployment := congrArg settle h.deployment
    apiVersion := congrArg settle h.apiVersion
    systemPrompt := congrArg settle h.systemPrompt }

/-! ## Plain payloads -/

/-- The text of a field is not of blanks only. -/
def PlainText (payload : Value F) (field : Str) : Prop :=
  ∀ value, payloadGet payload field = .ok value → value.isBlank = false → strip value.toStr ≠ []

/-- The temperature is not `nan`. -/
def PlainTemperature (payload : Value F) : Prop :=
  ∀ value x, payloadGet payload "temperature" = .ok value → value.isBlank = false →
    value.toFloat = .ok x → Python.le x x = true

structure PlainTexts (payload : Value F) : Prop where
  baseUrl : PlainText payload "base_url"
  deployment : PlainText payload "deployment"
  apiVersion : PlainText payload "api_version"
  systemPrompt : PlainText payload "system_prompt"

omit [DecidableEq F] in
/-- A value that `payload or {}` has is the payload's. -/
theorem payloadGet_of_or {payload : Value F} {field : Str} {value : Value F}
    (h : payloadGet (payload.or (.dict [])) field = .ok value) (hblank : value.isBlank = false) :
    payloadGet payload field = .ok value := by
  rw [Value.or] at h
  split at h
  · exact h
  · cases h
    cases hblank

omit [DecidableEq F] in
theorem settle_of_plain {payload : Value F} {isPartial : Bool} {field : Str} {value : Option (Option Str)}
    (h : optionalText (payload.or (.dict [])) isPartial field = .ok value) (hplain : PlainText payload field) :
    settle (value.getD none) = value.getD none := by
  refine settle_eq_self fun hempty => ?_
  cases value with
  | none => cases hempty
  | some text =>
    obtain ⟨raw, hraw, htext⟩ := optionalText_some h
    cases hempty
    split at htext
    · cases htext
    next hblank =>
      rw [Bool.not_eq_true] at hblank
      exact hplain raw (payloadGet_of_or hraw hblank) hblank (Option.some.inj htext).symm

omit [DecidableEq F] in
theorem comparable_of_plain {payload : Value F} {isPartial : Bool} {message : Str} {value : Option (Option F)}
    (h : optionalNumber (payload.or (.dict [])) isPartial "temperature" message Value.toFloat = .ok value)
    (hplain : PlainTemperature payload) : ∀ x, value = some (some x) → Python.le x x = true := by
  rintro x rfl
  obtain ⟨raw, hraw, hread⟩ := Except.bind_eq_ok.1 (optionalField_some h)
  split at hread
  · cases hread
  next hblank =>
    rw [Bool.not_eq_true] at hblank
    have hfloat : raw.toFloat = .ok x := by
      cases hraw' : raw.toFloat with
      | ok y =>
        rw [hraw'] at hread
        cases hread
        rfl
      | error err =>
        rw [hraw'] at hread
        cases err <;> cases hread
    exact hplain raw x (payloadGet_of_or hraw hblank) hblank hfloat

omit [DecidableEq F] in
theorem normalizeFull_reads {payload : Value F} {c : Config F} (h : normalizeFull payload = .ok c) :
    ∃ u : Updates F, u.ReadFrom (payload.or (.dict [])) false ∧ u.Gives c := by
  obtain ⟨u, hu, hcomplete⟩ := Except.bind_eq_ok.1 h
  exact ⟨u, readFrom_of_ok hu, gives_of_complete hcomplete⟩

omit [DecidableEq F] in
theorem normalizeFull_settled {payload : Value F} {c : Config F} (h : normalizeFull payload = .ok c)
    (hplain : PlainTexts payload) : c.Settled := by
  obtain ⟨u, hread, hgives⟩ := normalizeFull_reads h
  have hbase := settle_of_plain hread.baseUrl hplain.baseUrl
  have hdeployment := settle_of_plain hread.deployment hplain.deployment
  have hversion := settle_of_plain hread.apiVersion hplain.apiVersion
  have hprompt := settle_of_plain hread.systemPrompt hplain.systemPrompt
  rw [← hgives.baseUrl] at hbase
  rw [← hgives.deployment] at hdeployment
  rw [← hgives.apiVersion] at hversion
  rw [← hgives.systemPrompt] at hprompt
  rw [Config.Settled, Config.settled, hbase, hdeployment, hversion, hprompt]

omit [DecidableEq F] in
theorem normalizeFull_comparable {payload : Value F} {c : Config F} (h : normalizeFull payload = .ok c)
    (hplain : PlainTemperature payload) : c.Comparable := by
  obtain ⟨u, hread, hgives⟩ := normalizeFull_reads h
  intro x hx
  rw [hgives.temperature] at hx
  cases hvalue : u.temperature with
  | none =>
    rw [hvalue] at hx
    cases hx
  | some temperature =>
    rw [hvalue] at hx
    cases hx
    exact comparable_of_plain hread.temperature hplain x hvalue

/-! ## Unrelated payloads -/

/-- The fields the provider sees (:257), and the secret. -/
def relatedFields : List Str :=
  ["provider", "model", "base_url", "deployment", "api_version", "request_timeout", "temperature",
    "system_prompt", "extra_options", "api_key"]

/-- A payload that sets none of them. -/
structure Unrelated (payload : Value F) : Prop where
  absent : ∀ field ∈ relatedFields, payloadHas payload field = .ok false
  keeps : ∀ value, payloadGet payload "clear_secret" = .ok value → value.truthy = false

omit [DecidableEq F] in
theorem requiredField_absent {payload : Value F} {field : Str} (h : payloadHas payload field = .ok false) :
    requiredField payload true field = .ok none := by
  rw [requiredField, h]
  rfl

omit [Python F] [DecidableEq F] in
theorem optionalField_absent {α : Type} {payload : Value F} {field : Str} {read : Except ConfigError α}
    (h : payloadHas payload field = .ok false) : optionalField payload true field read = .ok none := by
  rw [optionalField, h]
  rfl

omit [DecidableEq F] in
theorem Unrelated.or {payload : Value F} (h : Unrelated payload) :
    ∀ field ∈ relatedFields, payloadHas (payload.or (.dict [])) field = .ok false := by
  intro field hfield
  rw [Value.or]
  split
  · exact h.absent field hfield
  · rfl

/-- A payload without the provider's fields leaves them in the row. -/
theorem Unrelated.agree {payload : Value F} (h : Unrelated payload) {u : Updates F}
    (hok : normalizeModelConfigPayload payload true = .ok u) (c : Config F) :
      (u.over c).normalizeDefaultState.Agree c := by
  have hread := readFrom_of_ok hok
  have hhas := h.or
  simp only [relatedFields, List.forall_mem_cons] at hhas
  obtain ⟨hprovider, hmodel, hbase, hdeployment, hversion, htimeout, htemperature, hprompt, hoptions, -⟩ := hhas
  have hvalue : ∀ {α : Type} {x : Except ConfigError (Option α)} {v : Option α} (a : α), x = .ok v →
      x = .ok none → v.getD a = a := by
    intro α x v a hv hnone
    rw [hv] at hnone
    cases hnone
    rfl
  constructor
  · exact hvalue _ hread.provider (requiredField_absent hprovider)
  · exact hvalue _ hread.model (requiredField_absent hmodel)
  · exact hvalue _ hread.baseUrl (optionalField_absent hbase)
  · exact hvalue _ hread.deployment (optionalField_absent hdeployment)
  · exact hvalue _ hread.apiVersion (optionalField_absent hversion)
  · exact hvalue _ hread.requestTimeout (optionalField_absent htimeout)
  · exact hvalue _ hread.temperature (optionalField_absent htemperature)
  · exact hvalue _ hread.systemPrompt (optionalField_absent hprompt)
  · have hsame : (u.over c).extraOptions = c.extraOptions := hvalue _ hread.extraOptions (optionalField_absent hoptions)
    show (Value.dict (u.over c).extraOptions).same (.dict c.extraOptions) = true
    rw [hsame]
    exact Value.same_refl _

omit [DecidableEq F] in
theorem Unrelated.secret {payload : Value F} (h : Unrelated payload) {encrypt : Str → Str} {current : Secret}
    {result : Secret × Bool}
    (hok : updatedSecret encrypt current payload = .ok result) : result = (current, false) := by
  have hkey : payloadHas payload "api_key" = .ok false := h.absent _ (by simp [relatedFields])
  rw [updatedSecret, hkey, Except.ok_bind] at hok
  obtain ⟨clear, hclear, hok⟩ := Except.bind_eq_ok.1 hok
  rw [h.keeps clear hclear] at hok
  cases hok
  rfl

/-- The provider's fields compare as unchanged. -/
structure Config.Plain (c : Config F) : Prop where
  settled : c.Settled
  comparable : c.Comparable

/-- An unrelated update of a plain row keeps its validation. -/
theorem Unrelated.validation {payload : Value F} (h : Unrelated payload) {encrypt : Str → Str} {current : Row F}
    (hnormal : current.config.Normal) (hplain : current.config.Plain) {prepared : StorePayload F}
    (hok : prepareUpdate encrypt current payload = .ok prepared) : prepared.validation = none := by
  obtain ⟨updates, c, secret, changed, hupdates, hc, hsecret, -, rfl⟩ := prepareUpdate_eq_ok hok
  cases h.secret hsecret
  have hmerged := (normalize_stripped hupdates).over hnormal.toStripped
  obtain rfl := normalizeFull_items_settled hmerged hc
  have hchanged : connectionFieldsChanged current.config
      (updates.over current.config).normalizeDefaultState.settled = false := by
    rw [connectionFieldsChanged_congr (h.agree hupdates current.config).settled]
    exact (unchanged_iff current.config).2 ⟨hplain.settled, hplain.comparable⟩
  rw [hchanged]
  rfl

/-- An update without fields writes the row normalised again. -/
theorem prepareUpdate_empty (encrypt : Str → Str) {current : Row F} (hnormal : current.config.Normal)
    (husable : current.config.provider = "ollama".toList ∨ current.secret.ciphertext.getD [] ≠ []) :
    prepareUpdate encrypt current (.dict []) = .ok ⟨some current.config.settled, some current.secret,
      if connectionFieldsChanged current.config current.config.settled then some .reset else none⟩ := by
  have hupdates : normalizeModelConfigPayload (.dict [] : Value F) true =
    .ok ⟨none, none, none, none, none, none, none, none, none, none, none, none, none, none⟩ := rfl
  have hsecret : updatedSecret encrypt current.secret (.dict [] : Value F) = .ok (current.secret, false) := rfl
  have hover : (Updates.over ⟨none, none, none, none, none, none, none, none, none, none, none, none, none,
      none⟩ current.config) = current.config := rfl
  have hrefused : ¬ (current.config.settled.provider ≠ "ollama".toList ∧ current.secret.ciphertext.getD [] = []) := by
    rintro ⟨hprovider, hempty⟩
    exact husable.elim hprovider fun h => h hempty
  rw [prepareUpdate, hupdates, Except.ok_bind, hover, normalizeDefaultState_normal hnormal]
  dsimp only
  rw [normalizeFull_normal_items hnormal, Except.ok_bind, normalizeDefaultState_normal hnormal.settled,
    hsecret, Except.ok_bind]
  dsimp only
  rw [if_neg hrefused, Bool.false_or]
  rfl

end Normaliser

end SlurmWeb.Assistant
