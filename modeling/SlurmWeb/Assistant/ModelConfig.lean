import SlurmWeb.Slurmrestd.Jobs
import SlurmWeb.Lib.PyEq

/-!
# Model configurations (slurmweb/ai/service.py)

What an administrator sends is normalised twice on its way to the store: the payload, and for an
update the row with the payload's fields over it. An update that changes what the provider sees, or
the secret, resets the validation.

| here | there |
| --- | --- |
| `normalizeBool`, `normalizeModelConfigPayload` | `_normalize_bool` (:83), `normalize_model_config_payload` (:118) |
| `Config.normalizeDefaultState` | `_normalize_default_state` (:247) |
| `connectionFieldsChanged` | `_connection_fields_changed` (:256) |
| `prepareCreate`, `prepareUpdate` | `create_model_config` (:332), `update_model_config` (:353), up to the store |
| `maskSecret` | `mask_secret` (slurmweb/ai/crypto.py:48) |
| `supportedProviders` | `SUPPORTED_PROVIDERS` (slurmweb/ai/providers.py:34) |

Floats are equal when they are the same, and `nan` to nothing: it is the one float not below itself.

* `normalize_complete` — a full payload that passes has every field.
* `normalizeDefaultState_enabled` — a default configuration is enabled.
* `agree_of_unchanged` — unchanged fields are the same fields.
-/

namespace SlurmWeb.Assistant

open Strings Py Slurmrestd

variable {F : Type} [Python F]

/-- An exception of the store, with its `pgcode`. -/
structure StoreError where
  pgcode : Option Str
  message : Str
deriving DecidableEq

inductive ConfigError
  | validation (message : Str)
  | python (err : Py.Error)
  | store (err : StoreError)
  | encryption (message : Str)
  | provider (message : Str)
deriving DecidableEq

/-- The columns a payload sets. -/
structure Config (F : Type) where
  name : Str
  provider : Str
  model : Str
  displayName : Str
  enabled : Bool
  isDefault : Bool
  sortOrder : Int
  baseUrl : Option Str
  deployment : Option Str
  apiVersion : Option Str
  systemPrompt : Option Str
  requestTimeout : Option Int
  temperature : Option F
  extraOptions : Arguments F

/-- A normalised payload: the fields it has. -/
structure Updates (F : Type) where
  name : Option Str
  provider : Option Str
  model : Option Str
  displayName : Option Str
  enabled : Option Bool
  isDefault : Option Bool
  sortOrder : Option Int
  baseUrl : Option (Option Str)
  deployment : Option (Option Str)
  apiVersion : Option (Option Str)
  systemPrompt : Option (Option Str)
  requestTimeout : Option (Option Int)
  temperature : Option (Option F)
  extraOptions : Option (Arguments F)

structure Secret where
  ciphertext : Option Str
  mask : Option Str
deriving DecidableEq

/-- `last_validated_at` and `last_validation_error`. -/
structure Validation where
  lastValidatedAt : Option Int
  lastValidationError : Option Str
deriving DecidableEq

/-- Not validated. -/
def Validation.reset : Validation := ⟨none, none⟩

structure Row (F : Type) where
  id : Int
  cluster : Str
  config : Config F
  secret : Secret
  validation : Validation
  createdAt : Int
  updatedAt : Int

/-! ## Payloads -/

def supportedProviders : List Str :=
  ["openai", "azure-openai", "anthropic", "google", "openai-compatible", "qwen", "deepseek", "kimi", "ollama"]

/-- `field in payload` -/
def payloadHas (payload : Value F) (field : Str) : Except ConfigError Bool := (contains payload field).mapError .python

/-- `payload.get(field, default)` -/
def payloadGetOr (payload : Value F) (field : Str) (default : Value F) : Except ConfigError (Value F) :=
  match payload with
  | .dict items => return Value.getOr items field default
  | _ => .error (.python .attributeError)

/-- `payload.get(field)` -/
def payloadGet (payload : Value F) (field : Str) : Except ConfigError (Value F) := payloadGetOr payload field .none

/-- `_normalize_bool` (:83) -/
def normalizeBool (default : Bool) : Value F → Bool
  | .none => default
  | .bool b => b
  | .str text => (strip text).map Char.toLower ∈ ["1".toList, "true", "yes", "on"]
  | value => value.truthy

/-- A required field (:122). -/
def requiredField (payload : Value F) (isPartial : Bool) (field : Str) : Except ConfigError (Option Str) := do
  if ← payloadHas payload field then
    let value := (← payloadGet payload field).strippedText
    if !isPartial && value = [] then .error (.validation (field ++ " is required".toList))
    else return if value = [] then none else some value
  else if !isPartial then .error (.validation (field ++ " is required".toList))
  else return none

/-- `provider not in SUPPORTED_PROVIDERS` (:134) -/
def checkProvider : Value F → Except ConfigError (Option Str)
  | .none => return none
  | .str provider =>
    if provider ∈ supportedProviders then return some provider
    else .error (.validation ("Unsupported provider ".toList ++ provider))
  | .list _ | .dict _ => .error (.python .typeError)
  | value => .error (.validation ("Unsupported provider ".toList ++ value.toStr))

/-- `normalized.get("provider") or payload.get("provider")`, checked (:133). -/
def chosenProvider (payload : Value F) : Option Str → Except ConfigError (Option Str)
  | some provider => checkProvider (.str provider : Value F)
  | none => do checkProvider (← payloadGet payload "provider")

/-- `if field in payload or not partial` -/
def optionalField {α : Type} (payload : Value F) (isPartial : Bool) (field : Str) (read : Except ConfigError α) :
    Except ConfigError (Option α) := do
  if (← payloadHas payload field) || !isPartial then some <$> read else return none

/-- `except (TypeError, ValueError): raise AIProviderValidationError(message)` -/
def orInvalid {α : Type} (message : Str) : Except Py.Error α → Except ConfigError α
  | .ok a => .ok a
  | .error .typeError | .error .valueError => .error (.validation message)
  | .error err => .error (.python err)

/-- A text or nothing (:151). -/
def optionalText (payload : Value F) (isPartial : Bool) (field : Str) : Except ConfigError (Option (Option Str)) :=
  optionalField payload isPartial field do
    let value ← payloadGet payload field
    return if value.isBlank then none else some (strip value.toStr)

/-- A number or nothing (:156, :167). -/
def optionalNumber {α : Type} (payload : Value F) (isPartial : Bool) (field message : Str)
    (convert : Value F → Except Py.Error α) : Except ConfigError (Option (Option α)) :=
  optionalField payload isPartial field do
    let value ← payloadGet payload field
    if value.isBlank then return none else some <$> orInvalid message (convert value)

/-- `extra_options` (:177) -/
def optionalOptions (payload : Value F) (isPartial : Bool) : Except ConfigError (Option (Arguments F)) :=
  optionalField payload isPartial "extra_options" do
    let value ← payloadGet payload "extra_options"
    if value.isBlank then return []
    else match value with
      | .dict items => return items
      | _ => .error (.validation "extra_options must be an object".toList)

/-- `if not partial or field in payload: if not normalized.get(field)` (:187) -/
def requireAzure (payload : Value F) (isPartial : Bool) (field : Str) (value : Option (Option Str)) :
    Except ConfigError Unit := do
  if !isPartial || (← payloadHas payload field) then
    if (value.getD none).getD [] = [] then
      .error (.validation ("Azure OpenAI requires ".toList ++ field)) else return ()
  else return ()

/-- The last check (:186). -/
def checkAzure (payload : Value F) (isPartial : Bool) (provider : Option Str)
    (baseUrl deployment : Option (Option Str)) : Except ConfigError Unit := do
  if provider = some "azure-openai".toList then
    requireAzure payload isPartial "base_url" baseUrl
    requireAzure payload isPartial "deployment" deployment

/-- `normalize_model_config_payload` (:118) -/
def normalizeModelConfigPayload (payload : Value F) (isPartial : Bool) : Except ConfigError (Updates F) := do
  let payload := payload.or (.dict [])
  let name ← requiredField payload isPartial "name"
  let provider ← requiredField payload isPartial "provider"
  let model ← requiredField payload isPartial "model"
  let displayName ← requiredField payload isPartial "display_name"
  let chosen ← chosenProvider payload provider
  let enabled ← optionalField payload isPartial "enabled" (normalizeBool true <$> payloadGet payload "enabled")
  let isDefault ← optionalField payload isPartial "is_default" (normalizeBool false <$> payloadGet payload "is_default")
  let sortOrder ← optionalField payload isPartial "sort_order" do
    orInvalid "sort_order must be an integer" ((← payloadGetOr payload "sort_order" (.int 0)).or (.int 0)).toInt
  let baseUrl ← optionalText payload isPartial "base_url"
  let deployment ← optionalText payload isPartial "deployment"
  let apiVersion ← optionalText payload isPartial "api_version"
  let systemPrompt ← optionalText payload isPartial "system_prompt"
  let requestTimeout ← optionalNumber payload isPartial "request_timeout"
      "request_timeout must be an integer" Value.toInt
  let temperature ← optionalNumber payload isPartial "temperature" "temperature must be numeric" Value.toFloat
  let extraOptions ← optionalOptions payload isPartial
  checkAzure payload isPartial chosen baseUrl deployment
  -- a default configuration is enabled (:143)
  let enabled := if isDefault = some true then some true else enabled
  return { name, provider, model, displayName, enabled, isDefault, sortOrder, baseUrl, deployment, apiVersion,
           systemPrompt, requestTimeout, temperature, extraOptions }

/-- `normalized[key]` for the keys of a full payload. -/
def Updates.complete (u : Updates F) : Except ConfigError (Config F) :=
  match u.name, u.provider, u.model, u.displayName, u.enabled, u.isDefault, u.sortOrder with
  | some name, some provider, some model, some displayName, some enabled, some isDefault, some sortOrder =>
    return { name, provider, model, displayName, enabled, isDefault, sortOrder
             baseUrl := u.baseUrl.getD none
             deployment := u.deployment.getD none
             apiVersion := u.apiVersion.getD none
             systemPrompt := u.systemPrompt.getD none
             requestTimeout := u.requestTimeout.getD none
             temperature := u.temperature.getD none
             extraOptions := u.extraOptions.getD [] }
  | _, _, _, _, _, _, _ => .error (.python .keyError)

theorem requiredField_full {payload : Value F} {field : Str} {value : Option Str}
    (h : requiredField payload false field = .ok value) : ∃ text, value = some text := by
  rw [requiredField, Except.bind_eq_ok] at h
  obtain ⟨has, -, h⟩ := h
  cases has with
  | false => cases h
  | true =>
    obtain ⟨raw, -, h⟩ := Except.bind_eq_ok.1 h
    by_cases hempty : raw.strippedText = []
    · simp [hempty] at h
    · simp only [hempty, decide_false, Bool.and_false, Bool.false_eq_true, if_false, Except.pure_eq_ok,
        Except.ok.injEq] at h
      exact ⟨_, h.symm⟩

omit [Python F] in
theorem optionalField_full {α : Type} {payload : Value F} {field : Str} {read : Except ConfigError α} {value : Option α}
    (h : optionalField payload false field read = .ok value) : ∃ a, value = some a := by
  rw [optionalField, Except.bind_eq_ok] at h
  obtain ⟨has, -, h⟩ := h
  rw [Bool.not_false, Bool.or_true, if_pos rfl] at h
  cases read with
  | error => cases h
  | ok a =>
    cases h
    exact ⟨a, rfl⟩

/-- A full payload that passes has every field. -/
theorem normalize_complete {payload : Value F} {u : Updates F} (h : normalizeModelConfigPayload payload false = .ok u) :
    ∃ c, u.complete = .ok c := by
  simp only [normalizeModelConfigPayload, Except.bind_eq_ok, Except.pure_eq_ok] at h
  obtain ⟨name, hname, provider, hprovider, model, hmodel, displayName, hdisplay, chosen, -, enabled,
      henabled, isDefault, hdefault, sortOrder, hsort, _, -, _, -, _, -, _, -, _, -, _, -, _, -, _, -, h⟩ := h
  obtain ⟨name, rfl⟩ := requiredField_full hname
  obtain ⟨provider, rfl⟩ := requiredField_full hprovider
  obtain ⟨model, rfl⟩ := requiredField_full hmodel
  obtain ⟨displayName, rfl⟩ := requiredField_full hdisplay
  obtain ⟨enabled, rfl⟩ := optionalField_full henabled
  obtain ⟨isDefault, rfl⟩ := optionalField_full hdefault
  obtain ⟨sortOrder, rfl⟩ := optionalField_full hsort
  cases h
  cases isDefault <;> exact ⟨_, rfl⟩

/-- `merged.update(updates)` -/
def Updates.over (u : Updates F) (c : Config F) : Config F where
  name := u.name.getD c.name
  provider := u.provider.getD c.provider
  model := u.model.getD c.model
  displayName := u.displayName.getD c.displayName
  enabled := u.enabled.getD c.enabled
  isDefault := u.isDefault.getD c.isDefault
  sortOrder := u.sortOrder.getD c.sortOrder
  baseUrl := u.baseUrl.getD c.baseUrl
  deployment := u.deployment.getD c.deployment
  apiVersion := u.apiVersion.getD c.apiVersion
  systemPrompt := u.systemPrompt.getD c.systemPrompt
  requestTimeout := u.requestTimeout.getD c.requestTimeout
  temperature := u.temperature.getD c.temperature
  extraOptions := u.extraOptions.getD c.extraOptions

/-- A text column. -/
def textValue : Option Str → Value F
  | some text => .str text
  | none => .none

/-- The configuration as a `dict`. -/
def Config.items (c : Config F) : Arguments F :=
  [("name", .str c.name), ("provider", .str c.provider), ("model", .str c.model), ("display_name", .str c.displayName),
    ("enabled", .bool c.enabled), ("is_default", .bool c.isDefault), ("sort_order", .int c.sortOrder),
    ("base_url", textValue c.baseUrl), ("deployment", textValue c.deployment), ("api_version", textValue c.apiVersion),
    ("request_timeout", (c.requestTimeout.map Value.int).getD .none),
      ("temperature", (c.temperature.map Value.float).getD .none),
    ("system_prompt", textValue c.systemPrompt), ("extra_options", .dict c.extraOptions)]

/-- `_normalize_default_state` (:247) -/
def Config.normalizeDefaultState (c : Config F) : Config F :=
  let enabled := c.isDefault || c.enabled
  { c with enabled, isDefault := enabled && c.isDefault }

omit [Python F] in
/-- A default configuration is enabled. -/
theorem normalizeDefaultState_enabled (c : Config F) (h : c.normalizeDefaultState.isDefault = true) :
    c.normalizeDefaultState.enabled = true := by
  rw [Config.normalizeDefaultState] at h ⊢
  exact (Bool.and_eq_true_iff.1 h).1

/-- `normalize_model_config_payload(payload, partial=False)`, with its fields. -/
def normalizeFull (payload : Value F) :
    Except ConfigError (Config F) := do (← normalizeModelConfigPayload payload false).complete

/-! ## Secrets -/

/-- `mask_secret` (crypto.py:48) -/
def maskSecret (secret : Str) : Str :=
  if secret = [] then []
  else "***".toList ++ if 4 ≤ secret.length then secret.drop (secret.length - 4) else secret

/-- `encrypt` (crypto.py:54), over the encryption itself. -/
def encryptSecret (encrypt : Str → Str) (secret : Str) : Secret :=
  if secret = [] then ⟨none, none⟩ else ⟨some (encrypt secret), some (maskSecret secret)⟩

/-! ## Creation and update, up to the store -/

/-- What the store is given: the parts its payload has. -/
structure StorePayload (F : Type) where
  config : Option (Config F)
  secret : Option Secret
  validation : Option Validation

/-- `create_model_config` (:332), up to the store. -/
def prepareCreate (encrypt : Str → Str) (payload : Value F) : Except ConfigError (Config F × Secret) := do
  let normalized := (← normalizeFull payload).normalizeDefaultState
  let secret := (← payloadGet payload "api_key").strippedText
  if secret = [] ∧ normalized.provider ≠ "ollama".toList then .error (.validation "api_key is required".toList)
  else return (normalized, encryptSecret encrypt secret)

/-- The secret of an update, and whether it is another one (:365). -/
def updatedSecret (encrypt : Str → Str) (current : Secret) (payload : Value F) :
    Except ConfigError (Secret × Bool) := do
  let has ← payloadHas payload "api_key"
  let clear := (← payloadGet payload "clear_secret").truthy
  if has || clear then
    let secret := (← payloadGet payload "api_key").strippedText
    if secret ≠ [] then return (encryptSecret encrypt secret, true)
    else if clear then return (⟨none, none⟩, true)
    else return (current, false)
  else return (current, false)

variable [DecidableEq F]

/-- `previous != current` for temperatures. -/
def temperatureChanged : Option F → Option F → Bool
  | none, none => false
  | some x, some y => !(decide (x = y) && Python.le x x)
  | _, _ => true

/-- `_connection_fields_changed` (:256) -/
def connectionFieldsChanged (previous current : Config F) : Bool :=
  decide (previous.provider ≠ current.provider) || decide (previous.model ≠ current.model) ||
    decide (previous.baseUrl ≠ current.baseUrl) || decide (previous.deployment ≠ current.deployment) ||
    decide (previous.apiVersion ≠ current.apiVersion) || decide (previous.requestTimeout ≠ current.requestTimeout) ||
    temperatureChanged previous.temperature current.temperature ||
      decide (previous.systemPrompt ≠ current.systemPrompt) ||
    !(Value.dict previous.extraOptions).same (.dict current.extraOptions)

/-- `update_model_config` (:353), from the row it has read to the store. -/
def prepareUpdate (encrypt : Str → Str) (current : Row F) (payload : Value F) :
    Except ConfigError (StorePayload F) := do
  let updates ← normalizeModelConfigPayload payload true
  let merged := (updates.over current.config).normalizeDefaultState
  let normalized := (← normalizeFull (.dict merged.items)).normalizeDefaultState
  let (secret, changed) ← updatedSecret encrypt current.secret payload
  if normalized.provider ≠ "ollama".toList ∧
    secret.ciphertext.getD [] = [] then .error (.validation "api_key is required".toList)
  else
    return { config := some normalized, secret := some secret
             validation := if changed || connectionFieldsChanged current.config normalized then some .reset else none }

/-! ## What the provider sees -/

/-- The same provider, address, options and prompt. -/
structure Config.Agree (a b : Config F) : Prop where
  provider : a.provider = b.provider
  model : a.model = b.model
  baseUrl : a.baseUrl = b.baseUrl
  deployment : a.deployment = b.deployment
  apiVersion : a.apiVersion = b.apiVersion
  requestTimeout : a.requestTimeout = b.requestTimeout
  temperature : a.temperature = b.temperature
  systemPrompt : a.systemPrompt = b.systemPrompt
  extraOptions : (Value.dict a.extraOptions).same (.dict b.extraOptions) = true

theorem Config.Agree.refl (a : Config F) : a.Agree a := ⟨rfl, rfl, rfl, rfl, rfl, rfl, rfl, rfl, Value.same_refl _⟩

theorem Config.Agree.symm {a b : Config F} (h : a.Agree b) : b.Agree a :=
  ⟨h.1.symm, h.2.symm, h.3.symm, h.4.symm, h.5.symm, h.6.symm, h.7.symm, h.8.symm, Value.same_symm h.9⟩

theorem Config.Agree.trans {a b c : Config F} (h : a.Agree b) (h' : b.Agree c) : a.Agree c :=
  ⟨h.1.trans h'.1, h.2.trans h'.2, h.3.trans h'.3, h.4.trans h'.4, h.5.trans h'.5, h.6.trans h'.6, h.7.trans h'.7,
    h.8.trans h'.8, Value.same_trans h.9 h'.9⟩

theorem temperature_eq_of_unchanged {x y : Option F} (h : temperatureChanged x y = false) : x = y := by
  cases x <;> cases y <;> simp_all [temperatureChanged]

/-- Unchanged fields are the same fields. -/
theorem agree_of_unchanged {previous current : Config F} (h : connectionFieldsChanged previous current = false) :
    previous.Agree current := by
  simp only [connectionFieldsChanged, Bool.or_eq_false_iff, decide_eq_false_iff_not, not_not, Bool.not_eq_false'] at h
  obtain ⟨⟨⟨⟨⟨⟨⟨⟨h1, h2⟩, h3⟩, h4⟩, h5⟩, h6⟩, h7⟩, h8⟩, h9⟩ := h
  exact ⟨h1, h2, h3, h4, h5, h6, temperature_eq_of_unchanged h7, h8, h9⟩

end SlurmWeb.Assistant
