import SlurmWeb.Assistant.ModelConfig
import SlurmWeb.Lib.Lists

/-!
# The table of model configurations

Each call of the store is a transaction: it commits, or leaves the table as it was. The table has a
primary key, a unique name in each cluster and a unique default in each cluster.

| here | there |
| --- | --- |
| `uniqueConfigName`, `uniqueDefaultConfig`, `checkUnique` | alembic/versions/20260424_0006_ai_assistant.py:71, :80 |
| `getConfig`, `createConfig`, `updateConfig`, `deleteConfig` | ai_model_config_store.py:100, :149, :215, :301 |
| `raiseStoreError` | `_raise_model_config_store_error` (slurmweb/ai/service.py:68) |
| `createModelConfig`, `updateModelConfig` | service.py:332, :353 |
| `deleteModelConfig`, `validateModelConfig` | service.py:395, :398 |

A statement that fails, for any reason, is a fault of the call's circumstances. `extra_options` comes
back from its column as it was sent.

* `Valid.run` — every call keeps names unique, defaults unique, and defaults enabled.
* `calls_keep` — so does every sequence of calls, and a call that raises leaves the rows alone.
-/

namespace SlurmWeb.Assistant

open Strings Py Slurmrestd

variable {F : Type}

abbrev Rows (F : Type) : Type := List (Row F)

/-- Where the statements of a transaction fail. -/
structure Faults where
  read : Option StoreError
  clear : Option StoreError
  write : Option StoreError
  commit : Option StoreError

/-- No fault. -/
def Faults.none : Faults := ⟨Option.none, Option.none, Option.none, Option.none⟩

def attempt : Option StoreError → Except StoreError Unit
  | some err => .error err
  | none => .ok ()

def uniqueConfigName : Str := "uq_ai_model_configs_cluster_name"

def uniqueDefaultConfig : Str := "uq_ai_model_configs_cluster_default"

/-- PostgreSQL's error for a constraint. -/
def duplicateKey (constraint : Str) : StoreError :=
  ⟨some "23505", "duplicate key value violates unique constraint ".toList ++ constraint⟩

/-- The constraints on a row beside the others. -/
def checkUnique (others : Rows F) (row : Row F) : Except StoreError Unit :=
  if others.any fun r => decide (r.id = row.id) then .error (duplicateKey "ai_model_configs_pkey")
  else if others.any fun r => decide (r.cluster = row.cluster) && decide (r.config.name = row.config.name) then
    .error (duplicateKey uniqueConfigName)
  else if row.config.isDefault && others.any fun r => decide (r.cluster = row.cluster) && r.config.isDefault then
    .error (duplicateKey uniqueDefaultConfig)
  else .ok ()

/-- `UPDATE .. SET is_default = FALSE`, for the cluster but `keep`. -/
def clearDefaults (cluster : Str) (keep : Option Int) (now : Int) (rows : Rows F) : Rows F :=
  rows.map fun r =>
    if r.cluster = cluster ∧ keep ≠ some r.id then
      { r with config := { r.config with isDefault := false }, updatedAt := now } else r

/-- A row in the place of the one with its id. -/
def replaceRow (row : Row F) (rows : Rows F) : Rows F := rows.map fun r => if r.id = row.id then row else r

/-- The row of a configuration. -/
def findRow (cluster : Str) (configId : Int) (rows : Rows F) : Option (Row F) :=
  rows.find? fun r => decide (r.cluster = cluster) && decide (r.id = configId)

/-- Commit, or roll back. -/
def transaction {α : Type} (rows : Rows F) : Except StoreError (α × Rows F) → Except StoreError α × Rows F
  | .ok (result, rows') => (.ok result, rows')
  | .error err => (.error err, rows)

/-- `get_config` (:100) -/
def getConfig (fault : Option StoreError) (cluster : Str) (configId : Int) (rows : Rows F) :
    Except StoreError (Option (Row F)) := do
  attempt fault
  return findRow cluster configId rows

/-- The first statement of a write that makes a default (:155, :232). -/
def clearing (fault : Option StoreError) (makesDefault : Bool) (cluster : Str) (keep : Option Int)
    (now : Int) (rows : Rows F) : Except StoreError (Rows F) :=
  if makesDefault then do
    attempt fault
    return clearDefaults cluster keep now rows
  else return rows

/-- `create_config` (:149); `serial` is the next id of the sequence. -/
def createConfig (faults : Faults) (cluster : Str) (serial now : Int) (config : Config F)
    (secret : Secret) (rows : Rows F) : Except StoreError (Row F) × Rows F :=
  transaction rows do
    attempt faults.read
    let rows ← clearing faults.clear config.isDefault cluster none now rows
    let row : Row F :=
      { id := serial, cluster, config, secret, validation := .reset, createdAt := now, updatedAt := now }
    attempt faults.write
    checkUnique rows row
    attempt faults.commit
    return (row, rows ++ [row])

/-- The row with a payload over it (:243). -/
def StorePayload.over (payload : StorePayload F) (now : Int) (row : Row F) : Row F :=
  { row with
    config := payload.config.getD row.config
    secret := payload.secret.getD row.secret
    validation := payload.validation.getD row.validation
    updatedAt := now }

/-- `payload.get("is_default")` -/
def StorePayload.makesDefault (payload : StorePayload F) : Bool := (payload.config.map (·.isDefault)).getD false

/-- The statements of `update_config` once it has the row (:230). -/
def writeConfig (faults : Faults) (cluster : Str) (now : Int) (payload : StorePayload F) (row : Row F) (rows : Rows F) :
    Except StoreError (Option (Row F) × Rows F) := do
  let rows ← clearing faults.clear payload.makesDefault cluster (some row.id) now rows
  let row := payload.over now row
  attempt faults.write
  checkUnique (rows.filter (·.id ≠ row.id)) row
  attempt faults.commit
  return (some row, replaceRow row rows)

/-- `update_config` (:215) -/
def updateConfig (faults : Faults) (cluster : Str) (configId now : Int) (payload : StorePayload F) (rows : Rows F) :
    Except StoreError (Option (Row F)) × Rows F :=
  transaction rows do
    attempt faults.read
    match findRow cluster configId rows with
    | none => return (none, rows)
    | some row => writeConfig faults cluster now payload row rows

/-- `delete_config` (:301) -/
def deleteConfig (faults : Faults) (cluster : Str) (configId : Int) (rows : Rows F) : Except StoreError Bool × Rows F :=
  transaction rows do
    attempt faults.write
    attempt faults.commit
    let kept := rows.filter fun r => !(decide (r.cluster = cluster) && decide (r.id = configId))
    return (decide (kept.length < rows.length), kept)

/-! ## The service -/

/-- What surrounds a call: the cluster of its agent, the time, faults, and what others answer. -/
structure Circumstances (F : Type) where
  cluster : Str
  now : Int
  serial : Int
  readFault : Option StoreError
  faults : Faults
  /-- Of the second write of `validate_model_config`. -/
  failureFaults : Faults
  encrypt : Str → Str
  /-- `decrypt`, or the text of its exception. -/
  decrypt : Str → Except Str Str
  /-- `client.validate`: the sample, or the text of its exception. -/
  validate : Config F → Str → Except Str Str

/-- `_raise_model_config_store_error` (:68) -/
def raiseStoreError (err : StoreError) : ConfigError :=
  if err.pgcode = some "23505".toList ∧ uniqueConfigName <:+: err.message then
    .validation "AI model config name must be unique within the cluster"
  else if err.pgcode = some "23505".toList ∧ uniqueDefaultConfig <:+: err.message then
    .validation "Only one default AI model is allowed per cluster"
  else .store err

/-- What a call returns: a row, nothing, whether it deleted, or a sample with the time of the validation. -/
inductive Answered (F : Type)
  | row (row : Row F)
  | missing
  | deleted (deleted : Bool)
  | validated (sample : Str) (lastValidatedAt : Option Int)

abbrev Outcome (F : Type) : Type := Except ConfigError (Answered F) × Rows F

section Service

variable [Python F] (env : Circumstances F)

/-- `create_model_config` (:332) -/
def createModelConfig (payload : Value F) (rows : Rows F) : Outcome F :=
  match prepareCreate env.encrypt payload with
  | .error err => (.error err, rows)
  | .ok (config, secret) =>
    let (created, rows) := createConfig env.faults env.cluster env.serial env.now config secret rows
    ((created.mapError raiseStoreError).map .row, rows)

/-- `delete_model_config` (:395) -/
def deleteModelConfig (configId : Int) (rows : Rows F) : Outcome F :=
  let (deleted, rows) := deleteConfig env.faults env.cluster configId rows
  ((deleted.mapError .store).map .deleted, rows)

/-- The secret in clear, as `get_model_config` adds it (:322). -/
def decryptSecret (decrypt : Str → Except Str Str) (secret : Secret) : Except ConfigError Str :=
  match secret.ciphertext with
  | none | some [] => .ok []
  | some ciphertext => (decrypt ciphertext).mapError .encryption

/-- The `except` of `validate_model_config` (:414). -/
def recordFailure (configId : Int) (err : ConfigError) (message : Str) (rows : Rows F) : Outcome F :=
  let (written, rows) := updateConfig env.failureFaults env.cluster configId env.now
    ⟨none, none, some ⟨some env.now, some message⟩⟩ rows
  match written with
  | .ok _ => (.error err, rows)
  | .error err => (.error (.store err), rows)

/-- `validate_model_config` (:398), once it has the secret. -/
def validateWith (configId : Int) (row : Row F) (apiKey : Str) (rows : Rows F) : Outcome F :=
  if row.config.provider ≠ "ollama".toList ∧ apiKey = [] then
    (.error (.validation "Configured model secret is missing"), rows)
  else if row.config.provider ∉ supportedProviders then
    (.error (.provider ("Unsupported AI provider ".toList ++ row.config.provider)), rows)
  else match env.validate row.config apiKey with
    | .error message => recordFailure env configId (.provider message) message rows
    | .ok sample =>
      match updateConfig env.faults env.cluster configId env.now ⟨none, none, some ⟨some env.now, none⟩⟩ rows with
      | (.ok updated, rows') => (.ok (.validated sample (updated.bind (·.validation.lastValidatedAt))), rows')
      | (.error err, rows') => recordFailure env configId (.store err) err.message rows'

/-- `validate_model_config` (:398) -/
def validateModelConfig (configId : Int) (rows : Rows F) : Outcome F :=
  match getConfig env.readFault env.cluster configId rows with
  | .error err => (.error (.store err), rows)
  | .ok none => (.ok .missing, rows)
  | .ok (some row) =>
    match decryptSecret env.decrypt row.secret with
    | .error err => (.error err, rows)
    | .ok apiKey => validateWith env configId row apiKey rows

variable [DecidableEq F]

/-- `update_model_config` (:353) -/
def updateModelConfig (configId : Int) (payload : Value F) (rows : Rows F) : Outcome F :=
  match getConfig env.readFault env.cluster configId rows with
  | .error err => (.error (.store err), rows)
  | .ok none => (.ok .missing, rows)
  | .ok (some current) =>
    match prepareUpdate env.encrypt current payload with
    | .error err => (.error err, rows)
    | .ok prepared =>
      let (updated, rows) := updateConfig env.faults env.cluster configId env.now prepared rows
      ((updated.mapError raiseStoreError).map fun updated => (updated.map Answered.row).getD .missing, rows)

end Service

inductive Call (F : Type)
  | create (payload : Value F)
  | update (configId : Int) (payload : Value F)
  | validate (configId : Int)
  | delete (configId : Int)

section Calls

variable [Python F] [DecidableEq F]

def Call.run (env : Circumstances F) (rows : Rows F) : Call F → Outcome F
  | .create payload => createModelConfig env payload rows
  | .update configId payload => updateModelConfig env configId payload rows
  | .validate configId => validateModelConfig env configId rows
  | .delete configId => deleteModelConfig env configId rows

/-- The rows after calls one after the other, from an empty table. -/
def runCalls (calls : List (Circumstances F × Call F)) : Rows F :=
  calls.foldl (fun rows call => (call.2.run call.1 rows).2) []

end Calls

/-! ## The invariant -/

structure Valid (rows : Rows F) : Prop where
  ids : (rows.map (·.id)).Nodup
  names : ∀ r ∈ rows, ∀ r' ∈ rows, r.cluster = r'.cluster → r.config.name = r'.config.name → r = r'
  defaults : ∀ r ∈ rows, ∀ r' ∈ rows, r.cluster = r'.cluster → r.config.isDefault = true →
    r'.config.isDefault = true → r = r'
  enabled : ∀ r ∈ rows, r.config.isDefault = true → r.config.enabled = true

theorem valid_nil : Valid ([] : Rows F) where
  ids := List.nodup_nil
  names _ hr := by cases hr
  defaults _ hr := by cases hr
  enabled _ hr := by cases hr

/-- A row among others it does not conflict with. -/
structure Fits (others : Rows F) (row : Row F) : Prop where
  id : ∀ r ∈ others, r.id ≠ row.id
  name : ∀ r ∈ others, r.cluster = row.cluster → r.config.name ≠ row.config.name
  default : row.config.isDefault = true → ∀ r ∈ others, r.cluster = row.cluster → r.config.isDefault = false

theorem fits_of_checkUnique {others : Rows F} {row : Row F} (h : checkUnique others row = .ok ()) :
    Fits others row := by
  rw [checkUnique] at h
  split at h
  · cases h
  next hid =>
    split at h
    · cases h
    next hname =>
      split at h
      · cases h
      next hdefault =>
        constructor
        · intro r hr heq
          exact hid (List.any_eq_true.2 ⟨r, hr, decide_eq_true heq⟩)
        · intro r hr hcluster heq
          exact hname (List.any_eq_true.2 ⟨r, hr, by simp [hcluster, heq]⟩)
        · intro hrow r hr hcluster
          by_contra hr'
          refine hdefault ?_
          rw [hrow, Bool.true_and]
          exact List.any_eq_true.2 ⟨r, hr, by simpa [hcluster] using hr'⟩

theorem Valid.filter {rows : Rows F} (h : Valid rows) (p : Row F → Bool) : Valid (rows.filter p) where
  ids := h.ids.sublist (List.filter_sublist.map _)
  names r hr r' hr' := h.names r (List.mem_of_mem_filter hr) r' (List.mem_of_mem_filter hr')
  defaults r hr r' hr' := h.defaults r (List.mem_of_mem_filter hr) r' (List.mem_of_mem_filter hr')
  enabled r hr := h.enabled r (List.mem_of_mem_filter hr)

/-- Rows that are what a row of the table was, up to a default given up. -/
theorem Valid.map {rows : Rows F} (h : Valid rows) (f : Row F → Row F) (hid : ∀ r, (f r).id = r.id)
    (hcluster : ∀ r, (f r).cluster = r.cluster) (hname : ∀ r, (f r).config.name = r.config.name)
    (henabled : ∀ r, (f r).config.enabled = r.config.enabled)
    (hdefault : ∀ r, (f r).config.isDefault = true → r.config.isDefault = true) : Valid (rows.map f) where
  ids := by
    rw [List.map_map, show (fun r : Row F => r.id) ∘ f = fun r => r.id from funext hid]
    exact h.ids
  names := by
    intro r hr r' hr' hc hn
    obtain ⟨a, ha, rfl⟩ := List.mem_map.1 hr
    obtain ⟨b, hb, rfl⟩ := List.mem_map.1 hr'
    rw [hcluster, hcluster] at hc
    rw [hname, hname] at hn
    rw [h.names a ha b hb hc hn]
  defaults := by
    intro r hr r' hr' hc hd hd'
    obtain ⟨a, ha, rfl⟩ := List.mem_map.1 hr
    obtain ⟨b, hb, rfl⟩ := List.mem_map.1 hr'
    rw [hcluster, hcluster] at hc
    rw [h.defaults a ha b hb hc (hdefault a hd) (hdefault b hd')]
  enabled := by
    intro r hr hd
    obtain ⟨a, ha, rfl⟩ := List.mem_map.1 hr
    rw [henabled]
    exact h.enabled a ha (hdefault a hd)

theorem Valid.clearDefaults {rows : Rows F} (h : Valid rows) (cluster : Str) (keep : Option Int) (now : Int) :
    Valid (clearDefaults cluster keep now rows) := by
  refine h.map _ ?_ ?_ ?_ ?_ ?_
  all_goals intro r
  all_goals split
  all_goals first | rfl | exact id | exact nofun

theorem Valid.append {rows : Rows F} (h : Valid rows) {row : Row F} (hfits : Fits rows row)
    (henabled : row.config.isDefault = true → row.config.enabled = true) : Valid (rows ++ [row]) where
  ids := by
    rw [List.map_append, List.map_singleton]
    refine h.ids.append (List.nodup_singleton _) fun id hid hid' => ?_
    obtain ⟨r, hr, rfl⟩ := List.mem_map.1 hid
    exact hfits.id r hr (List.mem_singleton.1 hid')
  names := by
    intro r hr r' hr' hc hn
    rcases List.mem_append.1 hr with hr | hr <;> rcases List.mem_append.1 hr' with hr' | hr'
    · exact h.names r hr r' hr' hc hn
    · cases List.mem_singleton.1 hr'
      exact absurd hn (hfits.name r hr hc)
    · cases List.mem_singleton.1 hr
      exact absurd hn.symm (hfits.name r' hr' hc.symm)
    · rw [List.mem_singleton.1 hr, List.mem_singleton.1 hr']
  defaults := by
    intro r hr r' hr' hc hd hd'
    rcases List.mem_append.1 hr with hr | hr <;> rcases List.mem_append.1 hr' with hr' | hr'
    · exact h.defaults r hr r' hr' hc hd hd'
    · cases List.mem_singleton.1 hr'
      rw [hfits.default hd' r hr hc] at hd
      cases hd
    · cases List.mem_singleton.1 hr
      rw [hfits.default hd r' hr' hc.symm] at hd'
      cases hd'
    · rw [List.mem_singleton.1 hr, List.mem_singleton.1 hr']
  enabled := by
    intro r hr
    rcases List.mem_append.1 hr with hr | hr
    · exact h.enabled r hr
    · cases List.mem_singleton.1 hr
      exact henabled

theorem mem_replaceRow {rows : Rows F} {row r : Row F} (h : r ∈ replaceRow row rows) :
    r = row ∨ r ∈ rows.filter (·.id ≠ row.id) := by
  obtain ⟨a, ha, rfl⟩ := List.mem_map.1 h
  by_cases hid : a.id = row.id
  · exact .inl (if_pos hid)
  · rw [if_neg hid]
    exact .inr (List.mem_filter.2 ⟨ha, decide_eq_true hid⟩)

theorem Valid.replaceRow {rows : Rows F} (h : Valid rows) {row : Row F} (hfits : Fits (rows.filter (·.id ≠ row.id)) row)
    (henabled : row.config.isDefault = true → row.config.enabled = true) : Valid (replaceRow row rows) where
  ids := by
    have hmap : (Assistant.replaceRow row rows).map (·.id) = rows.map (·.id) := by
      rw [Assistant.replaceRow, List.map_map]
      refine List.map_congr_left fun r _ => ?_
      show (if r.id = row.id then row else r).id = r.id
      split
      next hid => exact hid.symm
      next => rfl
    rw [hmap]
    exact h.ids
  names := by
    intro r hr r' hr' hc hn
    rcases mem_replaceRow hr with rfl | hr <;> rcases mem_replaceRow hr' with rfl | hr'
    · rfl
    · exact absurd hn.symm (hfits.name r' hr' hc.symm)
    · exact absurd hn (hfits.name r hr hc)
    · exact h.names r (List.mem_of_mem_filter hr) r' (List.mem_of_mem_filter hr') hc hn
  defaults := by
    intro r hr r' hr' hc hd hd'
    rcases mem_replaceRow hr with rfl | hr <;> rcases mem_replaceRow hr' with rfl | hr'
    · rfl
    · rw [hfits.default hd r' hr' hc.symm] at hd'
      cases hd'
    · rw [hfits.default hd' r hr hc] at hd
      cases hd
    · exact h.defaults r (List.mem_of_mem_filter hr) r' (List.mem_of_mem_filter hr') hc hd hd'
  enabled := by
    intro r hr
    rcases mem_replaceRow hr with rfl | hr
    · exact henabled
    · exact h.enabled r (List.mem_of_mem_filter hr)

/-! ## What each call leaves -/

theorem transaction_rows {α : Type} {rows : Rows F} {body : Except StoreError (α × Rows F)}
    {p : Rows F → Prop} (h : p rows)
    (hbody : ∀ a rows', body = .ok (a, rows') → p rows') : p (transaction rows body).2 := by
  cases body with
  | error => exact h
  | ok result => exact hbody result.1 result.2 rfl

/-- A transaction that raises rolls back. -/
theorem transaction_error {α : Type} {rows rows' : Rows F} {body : Except StoreError (α × Rows F)} {err : StoreError}
    (h : transaction rows body = (.error err, rows')) : rows' = rows := by
  cases body with
  | error =>
    cases h
    rfl
  | ok => cases h

theorem clearing_valid {fault : Option StoreError} {makesDefault : Bool} {cluster : Str} {keep : Option Int} {now : Int}
    {rows rows' : Rows F} (h : Valid rows) (hrows : clearing fault makesDefault cluster keep now rows = .ok rows') :
    Valid rows' := by
  rw [clearing] at hrows
  split at hrows
  · obtain ⟨-, -, hrows⟩ := Except.bind_eq_ok.1 hrows
    cases hrows
    exact h.clearDefaults cluster keep now
  · cases hrows
    exact h

/-- A default configuration is enabled. -/
def Config.Enabled (c : Config F) : Prop := c.isDefault = true → c.enabled = true

theorem createConfig_valid {rows : Rows F} (h : Valid rows) (faults : Faults) (cluster : Str)
    (serial now : Int) {config : Config F}
    (henabled : config.Enabled) (secret : Secret) :
      Valid (createConfig faults cluster serial now config secret rows).2 := by
  refine transaction_rows h fun row rows' hbody => ?_
  obtain ⟨-, -, hbody⟩ := Except.bind_eq_ok.1 hbody
  obtain ⟨cleared, hcleared, hbody⟩ := Except.bind_eq_ok.1 hbody
  obtain ⟨-, -, hbody⟩ := Except.bind_eq_ok.1 hbody
  obtain ⟨⟨⟩, hunique, hbody⟩ := Except.bind_eq_ok.1 hbody
  obtain ⟨-, -, hbody⟩ := Except.bind_eq_ok.1 hbody
  cases hbody
  exact (clearing_valid h hcleared).append (fits_of_checkUnique hunique) henabled

theorem writeConfig_valid {rows rows' : Rows F} (h : Valid rows) {faults : Faults} {cluster : Str} {now : Int}
    {payload : StorePayload F} {row : Row F} {result : Option (Row F)}
      (henabled : (payload.over now row).config.Enabled)
    (hbody : writeConfig faults cluster now payload row rows = .ok (result, rows')) : Valid rows' := by
  obtain ⟨cleared, hcleared, hbody⟩ := Except.bind_eq_ok.1 hbody
  obtain ⟨-, -, hbody⟩ := Except.bind_eq_ok.1 hbody
  obtain ⟨⟨⟩, hunique, hbody⟩ := Except.bind_eq_ok.1 hbody
  obtain ⟨-, -, hbody⟩ := Except.bind_eq_ok.1 hbody
  cases hbody
  exact (clearing_valid h hcleared).replaceRow (fits_of_checkUnique hunique) henabled

theorem findRow_mem {cluster : Str} {configId : Int} {rows : Rows F} {row : Row F}
    (h : findRow cluster configId rows = some row) :
    row ∈ rows ∧ row.cluster = cluster ∧ row.id = configId := by
  have hp := List.find?_some h
  rw [Bool.and_eq_true_iff, decide_eq_true_iff, decide_eq_true_iff] at hp
  exact ⟨List.mem_of_find?_eq_some h, hp⟩

/-- An update leaves the table, or writes the row it found. -/
theorem updateConfig_cases (faults : Faults) (cluster : Str) (configId now : Int)
    (payload : StorePayload F) (rows : Rows F) :
    (updateConfig faults cluster configId now payload rows).2 = rows ∨
      faults.read = none ∧ ∃ row result, findRow cluster configId rows = some row ∧
        writeConfig faults cluster now payload row rows =
          .ok (result, (updateConfig faults cluster configId now payload rows).2) := by
  rw [updateConfig]
  cases hread : faults.read with
  | some => exact .inl rfl
  | none =>
    cases hrow : findRow cluster configId rows with
    | none => exact .inl rfl
    | some row =>
      cases hwrite : writeConfig faults cluster now payload row rows with
      | error => exact .inl (by simp [attempt, transaction, hwrite])
      | ok written =>
        refine .inr ⟨rfl, row, written.1, rfl, ?_⟩
        simp [attempt, transaction, hwrite]

theorem updateConfig_valid {rows : Rows F} (h : Valid rows) (faults : Faults) (cluster : Str) (configId now : Int)
    {payload : StorePayload F} (henabled : ∀ config, payload.config = some config → config.Enabled) :
    Valid (updateConfig faults cluster configId now payload rows).2 := by
  rcases updateConfig_cases faults cluster configId now payload rows with hrows | ⟨-, row, result, hrow, hwrite⟩
  · rw [hrows]
    exact h
  · refine writeConfig_valid h ?_ hwrite
    rw [StorePayload.over]
    cases hconfig : payload.config with
    | none => exact h.enabled row (findRow_mem hrow).1
    | some config => exact henabled config hconfig

theorem deleteConfig_valid {rows : Rows F} (h : Valid rows) (faults : Faults) (cluster : Str) (configId : Int) :
    Valid (deleteConfig faults cluster configId rows).2 := by
  refine transaction_rows h fun deleted rows' hbody => ?_
  obtain ⟨-, -, hbody⟩ := Except.bind_eq_ok.1 hbody
  obtain ⟨-, -, hbody⟩ := Except.bind_eq_ok.1 hbody
  cases hbody
  exact h.filter _

/-- The rows but for the validation of one, and the time it was written. -/
def UpToValidation (cluster : Str) (configId : Int) (rows rows' : Rows F) : Prop :=
  List.Forall₂ (fun r r' => r' = r ∨ r.cluster = cluster ∧ r.id = configId ∧
    ∃ validation updatedAt, r' = { r with validation, updatedAt }) rows rows'

theorem UpToValidation.refl (cluster : Str) (configId : Int) (rows : Rows F) :
    UpToValidation cluster configId rows rows :=
  List.forall₂_same.2 fun _ _ => .inl rfl

/-- A payload with a validation only changes nothing else. -/
theorem updateConfig_validation {rows : Rows F} (h : Valid rows) (faults : Faults) (cluster : Str) (configId now : Int)
    (validation : Validation) :
    UpToValidation cluster configId rows
      (updateConfig faults cluster configId now ⟨none, none, some validation⟩ rows).2 := by
  rcases updateConfig_cases faults cluster configId now ⟨none, none, some validation⟩ rows with hrows | ⟨-, row,
      result, hrow, hwrite⟩
  · rw [hrows]
    exact .refl cluster configId rows
  · obtain ⟨cleared, hcleared, hwrite⟩ := Except.bind_eq_ok.1 hwrite
    obtain ⟨-, -, hwrite⟩ := Except.bind_eq_ok.1 hwrite
    obtain ⟨-, -, hwrite⟩ := Except.bind_eq_ok.1 hwrite
    obtain ⟨-, -, hwrite⟩ := Except.bind_eq_ok.1 hwrite
    cases hcleared
    simp only [Except.pure_eq_ok, Except.ok.injEq, Prod.mk.injEq] at hwrite
    rw [← hwrite.2]
    obtain ⟨hmem, hcluster, hid⟩ := findRow_mem hrow
    refine List.forall₂_map_right_iff.2 (List.forall₂_same.2 fun r hr => ?_)
    by_cases heq : r.id = row.id
    · -- the ids are unique, so this is the row
      have hsame : r = row := List.inj_on_of_nodup_map h.ids hr hmem heq
      rw [hsame]
      exact .inr ⟨hcluster, hid, validation, now, if_pos rfl⟩
    · exact .inl (if_neg heq)

section Prepared

variable [Python F]

theorem prepareCreate_enabled {encrypt : Str → Str} {payload : Value F} {config : Config F} {secret : Secret}
    (h : prepareCreate encrypt payload = .ok (config, secret)) : config.Enabled := by
  obtain ⟨c, -, h⟩ := Except.bind_eq_ok.1 h
  obtain ⟨_, -, h⟩ := Except.bind_eq_ok.1 h
  dsimp only at h
  split at h
  · cases h
  · cases h
    exact normalizeDefaultState_enabled c

end Prepared

theorem recordFailure_snd (env : Circumstances F) (configId : Int) (err : ConfigError) (message : Str) (rows : Rows F) :
    (recordFailure env configId err message rows).2 = (updateConfig env.failureFaults env.cluster configId env.now
      ⟨none, none, some ⟨some env.now, some message⟩⟩ rows).2 := by
  rw [recordFailure]
  generalize updateConfig env.failureFaults env.cluster configId env.now _ rows = result
  obtain ⟨written, rows'⟩ := result
  cases written <;> rfl

theorem validation_valid {rows : Rows F} (h : Valid rows) (faults : Faults) (cluster : Str) (configId now : Int)
    (validation : Validation) : Valid (updateConfig faults cluster configId now ⟨none, none, some validation⟩ rows).2 :=
  updateConfig_valid h faults cluster configId now fun _ hconfig => by cases hconfig

theorem validateWith_rows {env : Circumstances F} {configId : Int} {row : Row F} {apiKey : Str}
    {rows : Rows F} (h : Valid rows) : Valid (validateWith env configId row apiKey rows).2 ∧
      ∀ err, (validateWith env configId row apiKey rows).1 = .error err →
        UpToValidation env.cluster configId rows (validateWith env configId row apiKey rows).2 := by
  rw [validateWith]
  split
  · exact ⟨h, fun _ _ => .refl _ _ _⟩
  split
  · exact ⟨h, fun _ _ => .refl _ _ _⟩
  cases env.validate row.config apiKey with
  | error message =>
    dsimp only
    rw [recordFailure_snd]
    exact ⟨validation_valid h _ _ _ _ _, fun _ _ => updateConfig_validation h _ _ _ _ _⟩
  | ok sample =>
    have hvalid := validation_valid h env.faults env.cluster configId env.now ⟨some env.now, none⟩
    dsimp only
    cases hupdate : updateConfig env.faults env.cluster configId env.now
      ⟨none, none, some ⟨some env.now, none⟩⟩ rows with
    | mk updated rows' =>
      rw [hupdate] at hvalid
      cases updated with
      | ok updated => exact ⟨hvalid, fun err herr => by cases herr⟩
      | error err =>
        -- the write of the success rolls back, then the failure is written
        have hback := transaction_error hupdate
        subst hback
        dsimp only
        rw [recordFailure_snd]
        exact ⟨validation_valid h _ _ _ _ _, fun _ _ => updateConfig_validation h _ _ _ _ _⟩

theorem validateModelConfig_rows {env : Circumstances F} {configId : Int} {rows : Rows F} (h : Valid rows) :
    Valid (validateModelConfig env configId rows).2 ∧
      ∀ err, (validateModelConfig env configId rows).1 = .error err →
        UpToValidation env.cluster configId rows (validateModelConfig env configId rows).2 := by
  rw [validateModelConfig]
  split
  · exact ⟨h, fun _ _ => .refl _ _ _⟩
  · exact ⟨h, fun _ _ => .refl _ _ _⟩
  · split
    · exact ⟨h, fun _ _ => .refl _ _ _⟩
    · exact validateWith_rows h

section Runs

variable [Python F] [DecidableEq F]

theorem prepareUpdate_enabled {encrypt : Str → Str} {current : Row F} {payload : Value F} {prepared : StorePayload F}
    (h : prepareUpdate encrypt current payload = .ok prepared) :
      ∀ config, prepared.config = some config → config.Enabled := by
  obtain ⟨updates, -, h⟩ := Except.bind_eq_ok.1 h
  obtain ⟨c, -, h⟩ := Except.bind_eq_ok.1 h
  obtain ⟨⟨secret, changed⟩, -, h⟩ := Except.bind_eq_ok.1 h
  dsimp only at h
  split at h
  · cases h
  · cases h
    intro config hconfig
    cases hconfig
    exact normalizeDefaultState_enabled c

/-- What a call may leave when it raises: the rows as they were, but for the validation it records. -/
def LeftAlone (env : Circumstances F) (rows rows' : Rows F) : Call F → Prop
  | .validate configId => UpToValidation env.cluster configId rows rows'
  | _ => rows' = rows

/-- A call that raises leaves the rows alone. -/
theorem Valid.raise {rows : Rows F} (h : Valid rows) (env : Circumstances F) (call : Call F) {err : ConfigError}
    (herr : (call.run env rows).1 = .error err) : LeftAlone env rows (call.run env rows).2 call := by
  cases call with
  | validate configId => exact (validateModelConfig_rows h).2 err herr
  | create payload =>
    simp only [LeftAlone, Call.run, createModelConfig] at herr ⊢
    cases hprepare : prepareCreate env.encrypt payload with
    | error => rfl
    | ok prepared =>
      rw [hprepare] at herr
      dsimp only at herr ⊢
      cases hcreate : createConfig env.faults env.cluster env.serial env.now prepared.1 prepared.2 rows with
      | mk created rows' =>
        rw [hcreate] at herr
        cases created with
        | ok => cases herr
        | error => exact transaction_error hcreate
  | update configId payload =>
    simp only [LeftAlone, Call.run, updateModelConfig] at herr ⊢
    cases hread : getConfig env.readFault env.cluster configId rows with
    | error => rfl
    | ok found =>
      cases found with
      | none => rfl
      | some current =>
        rw [hread] at herr
        dsimp only at herr ⊢
        cases hprepare : prepareUpdate env.encrypt current payload with
        | error => rfl
        | ok prepared =>
          rw [hprepare] at herr
          dsimp only at herr ⊢
          cases hupdate : updateConfig env.faults env.cluster configId env.now prepared rows with
          | mk updated rows' =>
            rw [hupdate] at herr
            cases updated with
            | ok => cases herr
            | error => exact transaction_error hupdate
  | delete configId =>
    simp only [LeftAlone, Call.run, deleteModelConfig] at herr ⊢
    cases hdelete : deleteConfig env.faults env.cluster configId rows with
    | mk deleted rows' =>
      rw [hdelete] at herr
      cases deleted with
      | ok => cases herr
      | error => exact transaction_error hdelete

/-- Every call keeps the invariant. -/
theorem Valid.run {rows : Rows F} (h : Valid rows) (env : Circumstances F) (call : Call F) :
    Valid (call.run env rows).2 := by
  cases call with
  | validate configId => exact (validateModelConfig_rows h).1
  | create payload =>
    simp only [Call.run, createModelConfig]
    split
    · exact h
    next config secret hprepare => exact createConfig_valid h _ _ _ _ (prepareCreate_enabled hprepare) secret
  | update configId payload =>
    simp only [Call.run, updateModelConfig]
    split
    · exact h
    · exact h
    · split
      · exact h
      next hprepare => exact updateConfig_valid h _ _ _ _ (prepareUpdate_enabled hprepare)
  | delete configId => exact deleteConfig_valid h _ _ _

theorem runCalls_valid (calls : List (Circumstances F × Call F)) : Valid (runCalls calls) := by
  have hfold : ∀ (calls : List (Circumstances F × Call F)) (rows : Rows F), Valid rows →
      Valid (calls.foldl (fun rows call => (call.2.run call.1 rows).2) rows) := by
    intro calls
    induction calls with
    | nil => exact fun _ h => h
    | cons call calls ih => exact fun rows h => ih _ (h.run call.1 call.2)
  exact hfold calls [] valid_nil

/-- **Calls one after the other** keep one default at most in a cluster, defaults enabled and names unique,
and one that raises leaves every row as it was, but for what a failed validation records. -/
theorem calls_keep (calls : List (Circumstances F × Call F)) : Valid (runCalls calls) ∧
    ∀ (env : Circumstances F) (call : Call F) (err : ConfigError), (call.run env (runCalls calls)).1 = .error err →
      LeftAlone env (runCalls calls) (call.run env (runCalls calls)).2 call :=
  ⟨runCalls_valid calls, fun env call _ herr => (runCalls_valid calls).raise env call herr⟩

end Runs

/-- An agent whose provider does not answer. -/
def unreachable (now : Int) : Circumstances ℚ where
  cluster := "tiny"
  now := now
  serial := 1
  readFault := none
  faults := .none
  failureFaults := .none
  encrypt := id
  decrypt := .ok
  validate _ _ := .error "connection refused"

/-- A local model, made the default. -/
def localModel : Value ℚ :=
  .dict [("name", .str "local"), ("provider", .str "ollama"), ("model", .str "qwen"), ("display_name", .str "Local"),
    ("is_default", .bool true), ("enabled", .bool false)]

theorem calls_keep_local : Valid (runCalls [(unreachable 0, .create localModel)]) ∧
    LeftAlone (unreachable 5) (runCalls [(unreachable 0, .create localModel)])
      ((Call.validate 1 : Call ℚ).run (unreachable 5) (runCalls [(unreachable 0, .create localModel)])).2
        (.validate 1) := by
  have h := calls_keep [(unreachable 0, .create localModel)]
  exact ⟨h.1, h.2 (unreachable 5) (.validate 1) (.provider "connection refused") (by rfl)⟩

/-- The rows but for the validation of one. -/
def UpToValidationOnly (rows rows' : Rows ℚ) : Prop :=
  List.Forall₂ (fun r r' => ∃ validation, r' = { r with validation }) rows rows'

/-- A failed validation also moves `updated_at`. -/
theorem failed_validation_touches_updatedAt : ¬ ∀ (calls : List (Circumstances ℚ × Call ℚ)) (env : Circumstances ℚ)
    (call : Call ℚ) (err : ConfigError), (call.run env (runCalls calls)).1 = .error err →
      UpToValidationOnly (runCalls calls) (call.run env (runCalls calls)).2 := by
  intro h
  have hrows := h [(unreachable 0, .create localModel)] (unreachable 5) (.validate 1)
    (.provider "connection refused") (by rfl)
  have hbefore : (runCalls [(unreachable 0, .create localModel)]).map (·.updatedAt) = [0] := by rfl
  have hafter : ((Call.validate 1 : Call ℚ).run (unreachable 5) (runCalls [(unreachable 0, .create localModel)])).2.map
      (·.updatedAt) = [5] := by rfl
  have hsame : (runCalls [(unreachable 0, .create localModel)]).map (·.updatedAt) =
      ((Call.validate 1 : Call ℚ).run (unreachable 5) (runCalls [(unreachable 0, .create localModel)])).2.map
        (·.updatedAt) := by
    refine List.forall₂_eq_eq_eq ▸ List.forall₂_map_left_iff.2
      (List.forall₂_map_right_iff.2 (hrows.imp fun r r' hr => ?_))
    obtain ⟨validation, rfl⟩ := hr
    rfl
  rw [hbefore, hafter] at hsame
  cases hsame

end SlurmWeb.Assistant
