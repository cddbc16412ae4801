import SlurmWeb.Assistant.Renormalise

/-!
# Updates without fields, over the table (slurmweb/ai/service.py:353)

Creation goes through the normaliser once, an update twice: only a creation stores an empty text, and the
next update takes it away. `nan` differs from itself, so each update of a row with such a temperature
resets its validation.

* `Call.run_all` — the rule for what every row has.
* `empty_update_iff` — the rows that an update without fields leaves, in every run.
* `blank_prompt_resets` — a prompt of one blank.
-/

namespace SlurmWeb.Assistant

open Strings Py Slurmrestd

variable {F : Type}

/-! ## What every row has -/

section All

/-- Every row has a configuration and a secret with `P`. -/
def Rows.All (P : Config F → Secret → Prop) (rows : Rows F) : Prop := ∀ r ∈ rows, P r.config r.secret

/-- A row that gives up its default keeps `P`. -/
def Clears (P : Config F → Secret → Prop) : Prop := ∀ c s, P c s → P { c with isDefault := false } s

variable {P : Config F → Secret → Prop} {rows : Rows F}

theorem clearing_all (hclears : Clears P) (h : Rows.All P rows) {fault : Option StoreError}
    {makesDefault : Bool} {cluster : Str}
    {keep : Option Int} {now : Int} {rows' : Rows F}
      (hok : clearing fault makesDefault cluster keep now rows = .ok rows') :
    Rows.All P rows' := by
  rw [clearing] at hok
  split at hok
  · obtain ⟨-, -, hok⟩ := Except.bind_eq_ok.1 hok
    cases hok
    intro r hr
    obtain ⟨a, ha, rfl⟩ := List.mem_map.1 hr
    split
    · exact hclears _ _ (h a ha)
    · exact h a ha
  · cases hok
    exact h

theorem createConfig_all (hclears : Clears P) (h : Rows.All P rows) {faults : Faults} {cluster : Str} {serial now : Int}
    {config : Config F} {secret : Secret} (hnew : P config secret) :
    Rows.All P (createConfig faults cluster serial now config secret rows).2 := by
  refine transaction_rows h fun row rows' hbody => ?_
  obtain ⟨-, -, hbody⟩ := Except.bind_eq_ok.1 hbody
  obtain ⟨cleared, hcleared, hbody⟩ := Except.bind_eq_ok.1 hbody
  obtain ⟨-, -, hbody⟩ := Except.bind_eq_ok.1 hbody
  obtain ⟨-, -, hbody⟩ := Except.bind_eq_ok.1 hbody
  obtain ⟨-, -, hbody⟩ := Except.bind_eq_ok.1 hbody
  cases hbody
  intro r hr
  rcases List.mem_append.1 hr with hr | hr
  · exact clearing_all hclears h hcleared r hr
  · cases List.mem_singleton.1 hr
    exact hnew

theorem updateConfig_all (hclears : Clears P) (h : Rows.All P rows) {faults : Faults}
    {cluster : Str} {configId now : Int}
    {payload : StorePayload F} (hrow : ∀ row, findRow cluster configId rows = some row →
      P (payload.config.getD row.config) (payload.secret.getD row.secret)) :
    Rows.All P (updateConfig faults cluster configId now payload rows).2 := by
  rcases updateConfig_cases faults cluster configId now payload rows with hrows | ⟨-, row, result, hfound, hbody⟩
  · rw [hrows]
    exact h
  · obtain ⟨cleared, hcleared, hbody⟩ := Except.bind_eq_ok.1 hbody
    obtain ⟨-, -, hbody⟩ := Except.bind_eq_ok.1 hbody
    obtain ⟨-, -, hbody⟩ := Except.bind_eq_ok.1 hbody
    obtain ⟨-, -, hbody⟩ := Except.bind_eq_ok.1 hbody
    simp only [Except.pure_eq_ok, Except.ok.injEq, Prod.mk.injEq] at hbody
    rw [← hbody.2]
    intro r hr
    rcases mem_replaceRow hr with rfl | hr
    · exact hrow row hfound
    · exact clearing_all hclears h hcleared r (List.mem_of_mem_filter hr)

theorem updateConfig_validation_all (hclears : Clears P) (h : Rows.All P rows) (faults : Faults)
    (cluster : Str) (configId now : Int) (validation : Validation) :
    Rows.All P (updateConfig faults cluster configId now ⟨none, none, some validation⟩ rows).2 :=
  updateConfig_all hclears h fun row hfound => h row (findRow_mem hfound).1

theorem validateWith_all (hclears : Clears P) (h : Rows.All P rows) {env : Circumstances F}
    {configId : Int} {row : Row F}
    {apiKey : Str} : Rows.All P (validateWith env configId row apiKey rows).2 := by
  rw [validateWith]
  split
  · exact h
  split
  · exact h
  cases env.validate row.config apiKey with
  | error message =>
    dsimp only
    rw [recordFailure_snd]
    exact updateConfig_validation_all hclears h _ _ _ _ _
  | ok sample =>
    have hall := updateConfig_validation_all hclears h env.faults env.cluster configId env.now ⟨some env.now, none⟩
    dsimp only
    cases hupdate : updateConfig env.faults env.cluster configId env.now
      ⟨none, none, some ⟨some env.now, none⟩⟩ rows with
    | mk updated rows' =>
      rw [hupdate] at hall
      cases updated with
      | ok => exact hall
      | error =>
        dsimp only
        rw [recordFailure_snd]
        exact updateConfig_validation_all hclears hall _ _ _ _ _

variable [Python F] [DecidableEq F]

/-- What a call writes has `P`, if what it has read has. -/
def Call.Writes (P : Config F → Secret → Prop) (env : Circumstances F) : Call F → Prop
  | .create payload => ∀ config secret, prepareCreate env.encrypt payload = .ok (config, secret) → P config secret
  | .update _ payload => ∀ current prepared, P current.config current.secret →
      prepareUpdate env.encrypt current payload = .ok prepared →
        P (prepared.config.getD current.config) (prepared.secret.getD current.secret)
  | _ => True

theorem updateModelConfig_all (hclears : Clears P) (h : Rows.All P rows) {env : Circumstances F}
    {configId : Int} {payload : Value F}
    (hwrites : Call.Writes P env (.update configId payload)) :
      Rows.All P (updateModelConfig env configId payload rows).2 := by
  rw [updateModelConfig, getConfig]
  cases env.readFault with
  | some => exact h
  | none =>
    cases hfound : findRow env.cluster configId rows with
    | none => exact h
    | some current =>
      simp only [attempt, Except.ok_bind, Except.pure_eq_ok]
      cases hprepare : prepareUpdate env.encrypt current payload with
      | error => exact h
      | ok prepared =>
        refine updateConfig_all hclears h fun row hrow => ?_
        cases hfound.symm.trans hrow
        exact hwrites current prepared (h current (findRow_mem hfound).1) hprepare

/-- One call keeps `P`. -/
theorem Call.run_all (hclears : Clears P) (h : Rows.All P rows) {env : Circumstances F} {call : Call F}
    (hwrites : call.Writes P env) : Rows.All P (call.run env rows).2 := by
  cases call with
  | create payload =>
    simp only [Call.run, createModelConfig]
    split
    · exact h
    next config secret hprepare => exact createConfig_all hclears h (hwrites config secret hprepare)
  | update configId payload => exact updateModelConfig_all hclears h hwrites
  | validate configId =>
    simp only [Call.run, validateModelConfig]
    split
    · exact h
    · exact h
    · split
      · exact h
      · exact validateWith_all hclears h
  | delete configId =>
    refine transaction_rows h fun deleted rows' hbody => ?_
    obtain ⟨-, -, hbody⟩ := Except.bind_eq_ok.1 hbody
    obtain ⟨-, -, hbody⟩ := Except.bind_eq_ok.1 hbody
    cases hbody
    exact fun r hr => h r (List.mem_of_mem_filter hr)

/-- Calls one after the other keep `P`. -/
theorem runCalls_all (hclears : Clears P) {calls : List (Circumstances F × Call F)}
    (hwrites : ∀ call ∈ calls, call.2.Writes P call.1) : Rows.All P (runCalls calls) := by
  have hfold : ∀ (calls : List (Circumstances F × Call F)) (rows : Rows F), (∀ call ∈ calls, call.2.Writes P call.1) →
      Rows.All P rows → Rows.All P (calls.foldl (fun rows call => (call.2.run call.1 rows).2) rows) := by
    intro calls
    induction calls with
    | nil => exact fun rows _ h => h
    | cons call calls ih =>
      intro rows hwrites h
      exact ih _ (fun c hc => hwrites c (List.mem_cons_of_mem _ hc))
        (Call.run_all hclears h (hwrites call List.mem_cons_self))
  rw [runCalls]
  refine hfold calls [] hwrites fun r hr => ?_
  cases hr

end All

/-! ## An update of the table that changes nothing -/

section Store

/-- The rows but for the times they were written. -/
def TimesOnly (rows rows' : Rows F) : Prop :=
  List.Forall₂ (fun r r' => ∃ updatedAt, r' = { r with updatedAt }) rows rows'

theorem TimesOnly.refl (rows : Rows F) : TimesOnly rows rows := List.forall₂_same.2 fun r _ => ⟨r.updatedAt, rfl⟩

theorem TimesOnly.mem {rows rows' : Rows F} (h : TimesOnly rows rows') {r' : Row F} (hr' : r' ∈ rows') :
    ∃ r ∈ rows, ∃ updatedAt, r' = { r with updatedAt } := by
  induction h with
  | nil => cases hr'
  | cons hrow _ ih =>
    rcases List.mem_cons.1 hr' with rfl | hr'
    · exact ⟨_, List.mem_cons_self, hrow⟩
    · obtain ⟨r, hr, hrow⟩ := ih hr'
      exact ⟨r, List.mem_cons_of_mem _ hr, hrow⟩

/-- A row once the defaults of its cluster were cleared. -/
def Row.cleared (makesDefault : Bool) (cluster : Str) (keep : Option Int) (now : Int) (r : Row F) : Row F :=
  if makesDefault = true ∧ r.cluster = cluster ∧ keep ≠ some r.id then
    { r with config := { r.config with isDefault := false }, updatedAt := now }
  else r

theorem clearing_eq {fault : Option StoreError} {makesDefault : Bool} {cluster : Str} {keep : Option Int} {now : Int}
    {rows rows' : Rows F} (h : clearing fault makesDefault cluster keep now rows = .ok rows') :
    rows' = rows.map (Row.cleared makesDefault cluster keep now) := by
  rw [clearing] at h
  cases makesDefault with
  | true =>
    rw [if_pos rfl] at h
    obtain ⟨-, -, h⟩ := Except.bind_eq_ok.1 h
    cases h
    refine List.map_congr_left fun r _ => ?_
    simp only [Row.cleared, true_and]
  | false =>
    cases h
    have hid : Row.cleared false cluster keep now = (id : Row F → Row F) := by
      funext r
      simp only [Row.cleared, Bool.false_eq_true, false_and, if_false, id]
    rw [hid, List.map_id]

variable {makesDefault : Bool} {cluster : Str} {keep : Option Int} {now : Int}

@[simp] theorem cleared_id (r : Row F) : (r.cleared makesDefault cluster keep now).id = r.id := by
  rw [Row.cleared]
  split <;> rfl

@[simp] theorem cleared_cluster (r : Row F) : (r.cleared makesDefault cluster keep now).cluster = r.cluster := by
  rw [Row.cleared]
  split <;> rfl

@[simp] theorem cleared_name (r : Row F) : (r.cleared makesDefault cluster keep now).config.name = r.config.name := by
  rw [Row.cleared]
  split <;> rfl

theorem cleared_isDefault (r : Row F) (h : r.config.isDefault = false) :
    (r.cleared makesDefault cluster keep now).config.isDefault = false := by
  rw [Row.cleared]
  split
  · rfl
  · exact h

variable {rows : Rows F} {row : Row F}

/-- A default row is the only one of its cluster. -/
theorem not_default_of_ne (h : Valid rows) (hrow : row ∈ rows) (hdefault : row.config.isDefault = true)
    {r : Row F} (hr : r ∈ rows)
    (hcluster : r.cluster = row.cluster) (hid : r.id ≠ row.id) : r.config.isDefault = false := by
  by_contra hr'
  rw [Bool.not_eq_false] at hr'
  exact hid (congrArg Row.id (h.defaults r hr row hrow hcluster hr' hdefault))

/-- Clearing for a row that is the default already moves times only. -/
theorem cleared_timesOnly (h : Valid rows) (hrow : row ∈ rows)
    (hdefault : makesDefault = true → row.config.isDefault = true)
    {r : Row F} (hr : r ∈ rows) : ∃ updatedAt, r.cleared makesDefault row.cluster (some row.id) now =
      { r with updatedAt } := by
  rw [Row.cleared]
  split
  next hcleared =>
    obtain ⟨hmakes, hcluster, hkeep⟩ := hcleared
    have hother := not_default_of_ne h hrow (hdefault hmakes) hr hcluster fun hid => hkeep (congrArg some hid.symm)
    refine ⟨now, ?_⟩
    rw [← hother]
  next => exact ⟨r.updatedAt, rfl⟩

theorem makesDefault_of_getD {payload : StorePayload F} {c : Config F} (h : payload.config.getD c = c)
    (hmakes : payload.makesDefault = true) : c.isDefault = true := by
  rw [StorePayload.makesDefault] at hmakes
  cases hconfig : payload.config with
  | none =>
    rw [hconfig] at hmakes
    cases hmakes
  | some config =>
    rw [hconfig] at h hmakes
    rw [← h]
    exact hmakes

/-- A payload with what the row has already moves times only. -/
theorem updateConfig_timesOnly (h : Valid rows) {faults : Faults} {configId : Int} {payload : StorePayload F}
    (hfound : findRow cluster configId rows = some row) (hconfig : payload.config.getD row.config = row.config)
    (hsecret : payload.secret.getD row.secret = row.secret)
    (hvalidation : payload.validation.getD row.validation = row.validation) :
    TimesOnly rows (updateConfig faults cluster configId now payload rows).2 := by
  obtain ⟨hmem, rfl, rfl⟩ := findRow_mem hfound
  rcases updateConfig_cases faults row.cluster row.id now payload rows with hrows | ⟨-, found, result, hfound', hbody⟩
  · rw [hrows]
    exact .refl rows
  · cases hfound.symm.trans hfound'
    obtain ⟨cleared, hcleared, hbody⟩ := Except.bind_eq_ok.1 hbody
    obtain ⟨-, -, hbody⟩ := Except.bind_eq_ok.1 hbody
    obtain ⟨-, -, hbody⟩ := Except.bind_eq_ok.1 hbody
    obtain ⟨-, -, hbody⟩ := Except.bind_eq_ok.1 hbody
    simp only [Except.pure_eq_ok, Except.ok.injEq, Prod.mk.injEq] at hbody
    have hover : payload.over now row = { row with updatedAt := now } := by
      rw [StorePayload.over, hconfig, hsecret, hvalidation]
    rw [← hbody.2, clearing_eq hcleared, hover, replaceRow, List.map_map]
    refine List.forall₂_map_right_iff.2 (List.forall₂_same.2 fun r hr => ?_)
    simp only [Function.comp_apply, cleared_id]
    split
    next hid =>
      -- the ids are unique, so this is the row
      have hsame : r = row := List.inj_on_of_nodup_map h.ids hr hmem hid
      rw [hsame]
      exact ⟨now, rfl⟩
    next => exact cleared_timesOnly h hmem (makesDefault_of_getD hconfig) hr

theorem checkUnique_of_fits {others : Rows F} (h : Fits others row) : checkUnique others row = .ok () := by
  have hid : ¬ (others.any fun r => decide (r.id = row.id)) = true := by
    rw [List.any_eq_true]
    rintro ⟨r, hr, heq⟩
    exact h.id r hr (of_decide_eq_true heq)
  have hname : ¬ (others.any fun r => decide (r.cluster = row.cluster) &&
      decide (r.config.name = row.config.name)) = true := by
    rw [List.any_eq_true]
    rintro ⟨r, hr, heq⟩
    rw [Bool.and_eq_true_iff, decide_eq_true_iff, decide_eq_true_iff] at heq
    exact h.name r hr heq.1 heq.2
  have hdefault : ¬ (row.config.isDefault && others.any fun r => decide (r.cluster = row.cluster) &&
      r.config.isDefault) = true := by
    rw [Bool.and_eq_true_iff, List.any_eq_true]
    rintro ⟨hrow, r, hr, heq⟩
    rw [Bool.and_eq_true_iff, decide_eq_true_iff] at heq
    rw [h.default hrow r hr heq.1] at heq
    cases heq.2
  rw [checkUnique, if_neg hid, if_neg hname, if_neg hdefault]

/-- Without faults, a payload with the row's name and default is written. -/
theorem updateConfig_ok (h : Valid rows) (hrow : row ∈ rows) (now : Int) {payload : StorePayload F}
    (hname : (payload.over now row).config.name = row.config.name)
    (hdefault : (payload.over now row).config.isDefault = row.config.isDefault) :
    updateConfig .none row.cluster row.id now payload rows = (.ok (some (payload.over now row)),
      replaceRow (payload.over now row) (rows.map
        (Row.cleared payload.makesDefault row.cluster (some row.id) now))) := by
  have hfound : findRow row.cluster row.id rows = some row := (findRow_eq_some_iff h).2 ⟨hrow, rfl, rfl⟩
  obtain ⟨cleared, hcleared⟩ : ∃ cleared, clearing none payload.makesDefault row.cluster (some row.id) now
      rows = .ok cleared := by
    rw [clearing]
    split <;> exact ⟨_, rfl⟩
  have hothers : ∀ r ∈ cleared.filter (·.id ≠ row.id), ∃ a ∈ rows,
      r = a.cleared payload.makesDefault row.cluster (some row.id) now ∧ a.id ≠ row.id := by
    intro r hr
    rw [clearing_eq hcleared] at hr
    obtain ⟨hr, hid⟩ := List.mem_filter.1 hr
    obtain ⟨a, ha, rfl⟩ := List.mem_map.1 hr
    rw [decide_eq_true_iff, cleared_id] at hid
    exact ⟨a, ha, rfl, hid⟩
  have hfits : Fits (cleared.filter (·.id ≠ row.id)) (payload.over now row) := by
    constructor
    · intro r hr
      obtain ⟨a, -, rfl, hid⟩ := hothers r hr
      rw [cleared_id]
      exact hid
    · intro r hr hcluster hsame
      obtain ⟨a, ha, rfl, hid⟩ := hothers r hr
      rw [cleared_cluster] at hcluster
      rw [cleared_name, hname] at hsame
      exact hid (congrArg Row.id (h.names a ha row hrow hcluster hsame))
    · intro hmakes r hr hcluster
      obtain ⟨a, ha, rfl, hid⟩ := hothers r hr
      rw [cleared_cluster] at hcluster
      exact cleared_isDefault a (not_default_of_ne h hrow (hdefault.symm.trans hmakes) ha hcluster hid)
  have hwrite : writeConfig .none row.cluster now payload row rows =
      .ok (some (payload.over now row), replaceRow (payload.over now row) cleared) := by
    rw [writeConfig, show Faults.none.clear = none from rfl, hcleared, Except.ok_bind]
    dsimp only
    rw [show attempt Faults.none.write = .ok () from rfl, Except.ok_bind]
    have hunique := checkUnique_of_fits hfits
    rw [show (payload.over now row).id = row.id from rfl, hunique]
    rfl
  rw [← clearing_eq hcleared, updateConfig, show attempt Faults.none.read = .ok () from rfl, Except.ok_bind, hfound]
  dsimp only
  rw [hwrite]
  rfl

end Store

/-! ## Runs -/

section Runs

variable [Python F] [DecidableEq F]

/-- A row of the table: normalised, with the secret its provider asks for (:377). -/
structure Stored (c : Config F) (s : Secret) : Prop where
  normal : c.Normal
  usable : c.provider = "ollama".toList ∨ s.ciphertext.getD [] ≠ []

/-- Normalised, and plain. -/
structure StoredPlain (c : Config F) (s : Secret) : Prop where
  normal : c.Normal
  plain : c.Plain

omit [Python F] [DecidableEq F] in
theorem stored_clears : Clears (@Stored F) := fun _ _ h => ⟨h.normal.clear, h.usable⟩

omit [DecidableEq F] in
theorem storedPlain_clears : Clears (@StoredPlain F _) := by
  intro c s h
  refine ⟨h.normal.clear, ?_, h.plain.comparable⟩
  rw [Config.Settled]
  exact congrArg (fun c : Config F => { c with isDefault := false }) h.plain.settled

omit [DecidableEq F] in
theorem prepareCreate_eq_ok {encrypt : Str → Str} {payload : Value F} {config : Config F} {secret : Secret}
    (h : prepareCreate encrypt payload = .ok (config, secret)) : normalizeFull payload = .ok config ∧
      ∃ text, (text ≠ [] ∨ config.provider = "ollama".toList) ∧ secret = encryptSecret encrypt text := by
  obtain ⟨c, hc, h⟩ := Except.bind_eq_ok.1 h
  obtain ⟨key, -, h⟩ := Except.bind_eq_ok.1 h
  rw [normalizeDefaultState_normal (normalizeFull_normal hc)] at h
  dsimp only at h
  split at h
  · cases h
  next hkey =>
    cases h
    refine ⟨hc, key.strippedText, ?_, rfl⟩
    by_contra hnot
    obtain ⟨hempty, hprovider⟩ := not_or.1 hnot
    exact hkey ⟨not_not.1 hempty, hprovider⟩

theorem stored_writes {env : Circumstances F} (hencrypt : ∀ text, env.encrypt text ≠ []) (call : Call F) :
    call.Writes Stored env := by
  cases call with
  | create payload =>
    intro config secret hprepare
    obtain ⟨hc, text, htext, rfl⟩ := prepareCreate_eq_ok hprepare
    refine ⟨normalizeFull_normal hc, ?_⟩
    rcases htext with htext | hprovider
    · rw [encryptSecret, if_neg htext]
      exact .inr (hencrypt text)
    · exact .inl hprovider
  | update configId payload =>
    intro current prepared _ hprepare
    obtain ⟨_, c, secret, _, -, hc, -, husable, rfl⟩ := prepareUpdate_eq_ok hprepare
    exact ⟨normalizeFull_normal hc, husable⟩
  | validate => trivial
  | delete => trivial

/-- A creation whose texts are not of blanks only, and no temperature that is `nan`. -/
def Call.Plain : Call F → Prop
  | .create payload => PlainTexts payload ∧ PlainTemperature payload
  | .update _ payload => PlainTemperature payload
  | _ => True

theorem storedPlain_writes (env : Circumstances F) {call : Call F} (hplain : call.Plain) :
    call.Writes StoredPlain env := by
  cases call with
  | create payload =>
    intro config secret hprepare
    obtain ⟨hc, -⟩ := prepareCreate_eq_ok hprepare
    exact ⟨normalizeFull_normal hc, normalizeFull_settled hc hplain.1, normalizeFull_comparable hc hplain.2⟩
  | update configId payload =>
    intro current prepared hcurrent hprepare
    obtain ⟨updates, c, secret, _, hupdates, hc, -, -, rfl⟩ := prepareUpdate_eq_ok hprepare
    have hmerged := (normalize_stripped hupdates).over hcurrent.normal.toStripped
    refine ⟨normalizeFull_normal hc, ?_⟩
    obtain rfl := normalizeFull_items_settled hmerged hc
    refine ⟨settled_settled _, ?_⟩
    -- the temperature is the payload's, or the row's
    intro x hx
    have htemperature : updates.temperature.getD current.config.temperature = some x := hx
    cases hvalue : updates.temperature with
    | none =>
      rw [hvalue] at htemperature
      exact hcurrent.plain.comparable x htemperature
    | some temperature =>
      rw [hvalue] at htemperature
      cases htemperature
      exact comparable_of_plain (readFrom_of_ok hupdates).temperature hplain x hvalue
  | validate => trivial
  | delete => trivial

/-- An update without fields leaves the table but for times. -/
def Keeps (rows : Rows F) (row : Row F) : Prop :=
  ∀ env : Circumstances F, TimesOnly rows (updateModelConfig env row.id (.dict []) rows).2

/-- The row has no empty text, and no validation to lose to `nan`. -/
def Row.Steady (row : Row F) : Prop := row.config.Settled ∧ (row.config.Comparable ∨ row.validation = .reset)

variable {rows : Rows F} {row : Row F}

/-- What an update of a row does: nothing, or the write it has prepared. -/
theorem updateModelConfig_cases (h : Valid rows) (hrow : row ∈ rows) (env : Circumstances F) (payload : Value F) :
    (updateModelConfig env row.id payload rows).2 = rows ∨ ∃ prepared,
      prepareUpdate env.encrypt row payload = .ok prepared ∧
      findRow env.cluster row.id rows = some row ∧ (updateModelConfig env row.id payload rows).2 =
        (updateConfig env.faults env.cluster row.id env.now prepared rows).2 := by
  rw [updateModelConfig, getConfig]
  cases env.readFault with
  | some => exact .inl rfl
  | none =>
    cases hfound : findRow env.cluster row.id rows with
    | none => exact .inl rfl
    | some current =>
      obtain ⟨hmem, -, hid⟩ := findRow_mem hfound
      obtain rfl : current = row := List.inj_on_of_nodup_map h.ids hmem hrow hid
      cases hprepare : prepareUpdate env.encrypt current payload with
      | error =>
        refine .inl ?_
        simp [attempt, hprepare]
      | ok prepared =>
        refine .inr ⟨prepared, rfl, rfl, ?_⟩
        simp [attempt, hprepare]

/-- A steady row is left as it is. -/
theorem keeps_of_steady (h : Valid rows) (hrow : row ∈ rows) (hstored : Stored row.config row.secret)
    (hsteady : row.Steady) : Keeps rows row := by
  intro env
  rcases updateModelConfig_cases h hrow env (.dict []) with hrows | ⟨prepared, hprepare, hfound, hrows⟩
  · rw [hrows]
    exact .refl rows
  · rw [hrows]
    rw [prepareUpdate_empty env.encrypt hstored.normal hstored.usable] at hprepare
    cases hprepare
    refine updateConfig_timesOnly h hfound hsteady.1 rfl ?_
    show (if connectionFieldsChanged row.config row.config.settled then some Validation.reset else none).getD
        row.validation = row.validation
    split
    next hchanged =>
      rcases hsteady.2 with hcomparable | hreset
      · rw [(unchanged_iff row.config).2 ⟨hsteady.1, hcomparable⟩] at hchanged
        cases hchanged
      · exact hreset.symm
    next => rfl

/-- Where nothing fails. -/
structure Circumstances.Quiet (env : Circumstances F) (row : Row F) : Prop where
  cluster : env.cluster = row.cluster
  read : env.readFault = none
  faults : env.faults = .none

/-- Where nothing fails, an update without fields writes the row normalised again. -/
theorem updateModelConfig_quiet (h : Valid rows) (hrow : row ∈ rows) (hstored : Stored row.config row.secret)
    {env : Circumstances F} (hquiet : env.Quiet row) : ∃ written : Row F,
      written = { row with config := row.config.settled, updatedAt := env.now,
                           validation := if connectionFieldsChanged row.config row.config.settled then
                             .reset else row.validation } ∧
      (updateModelConfig env row.id (.dict []) rows).1 = .ok (.row written) ∧
      written ∈ (updateModelConfig env row.id (.dict []) rows).2 := by
  have hfound : findRow row.cluster row.id rows = some row := (findRow_eq_some_iff h).2 ⟨hrow, rfl, rfl⟩
  have hget : getConfig env.readFault env.cluster row.id rows = .ok (some row) := by
    rw [getConfig, hquiet.read, hquiet.cluster, hfound]
    rfl
  have hover : StorePayload.over ⟨some row.config.settled, some row.secret,
      if connectionFieldsChanged row.config row.config.settled then some .reset else none⟩ env.now row =
        { row with config := row.config.settled, updatedAt := env.now,
                   validation := if connectionFieldsChanged row.config row.config.settled then
                     .reset else row.validation } := by
    rw [StorePayload.over]
    split <;> rfl
  refine ⟨_, rfl, ?_⟩
  rw [updateModelConfig, hget]
  dsimp only
  rw [prepareUpdate_empty env.encrypt hstored.normal hstored.usable]
  dsimp only
  rw [hquiet.faults, hquiet.cluster, updateConfig_ok h hrow env.now rfl rfl, hover]
  refine ⟨rfl, List.mem_map.2 ⟨row.cleared row.config.settled.isDefault row.cluster (some row.id) env.now, ?_, ?_⟩⟩
  · exact List.mem_map_of_mem hrow
  · rw [if_pos (cleared_id row)]

/-- A row that every update without fields leaves is steady. -/
theorem steady_of_keeps (h : Valid rows) (hrow : row ∈ rows) (hstored : Stored row.config row.secret)
    (hkeeps : Keeps rows row) : row.Steady := by
  let env : Circumstances F := ⟨row.cluster, 0, 0, none, .none, .none, id, .ok, fun _ _ => .ok []⟩
  obtain ⟨written, hwritten, -, hmem⟩ := updateModelConfig_quiet h hrow hstored (⟨rfl, rfl, rfl⟩ : env.Quiet row)
  obtain ⟨r, hr, updatedAt, hsame⟩ := (hkeeps env).mem hmem
  have hid : r.id = row.id := by
    have := congrArg Row.id (hwritten.symm.trans hsame)
    exact this.symm
  obtain rfl : r = row := List.inj_on_of_nodup_map h.ids hr hrow hid
  have hconfig : r.config.settled = r.config := congrArg Row.config (hwritten.symm.trans hsame)
  have hvalidation : (if connectionFieldsChanged r.config r.config.settled then .reset else r.validation) =
      r.validation :=
    congrArg Row.validation (hwritten.symm.trans hsame)
  refine ⟨hconfig, ?_⟩
  by_cases hchanged : connectionFieldsChanged r.config r.config.settled = true
  · rw [if_pos hchanged] at hvalidation
    exact .inr hvalidation.symm
  · rw [Bool.not_eq_true, unchanged_iff] at hchanged
    exact .inl hchanged.2

/-- An unrelated update of a plain row keeps its validation. -/
theorem unrelated_keeps_validation (h : Valid rows) (hrow : row ∈ rows) (hstored : StoredPlain row.config row.secret)
    (env : Circumstances F) {payload : Value F} (hunrelated : Unrelated payload) :
    ∀ r ∈ (updateModelConfig env row.id payload rows).2, r.id = row.id → r.validation = row.validation := by
  intro r hr hid
  rcases updateModelConfig_cases h hrow env payload with hrows | ⟨prepared, hprepare, hfound, hrows⟩
  · rw [hrows] at hr
    rw [List.inj_on_of_nodup_map h.ids hr hrow hid]
  · rw [hrows] at hr
    have hvalid := updateConfig_valid h env.faults env.cluster row.id env.now (prepareUpdate_enabled hprepare)
    have hcluster : r.cluster = env.cluster := by
      obtain ⟨hmem, hcluster, -⟩ := findRow_mem hfound
      rcases updateConfig_cases env.faults env.cluster row.id env.now prepared rows with hsame | ⟨-, found,
          result, hfound', hbody⟩
      · rw [hsame] at hr
        rw [List.inj_on_of_nodup_map h.ids hr hrow hid]
        exact hcluster
      · cases hfound.symm.trans hfound'
        obtain ⟨cleared, -, hbody⟩ := Except.bind_eq_ok.1 hbody
        obtain ⟨-, -, hbody⟩ := Except.bind_eq_ok.1 hbody
        obtain ⟨-, -, hbody⟩ := Except.bind_eq_ok.1 hbody
        obtain ⟨-, -, hbody⟩ := Except.bind_eq_ok.1 hbody
        simp only [Except.pure_eq_ok, Except.ok.injEq, Prod.mk.injEq] at hbody
        rw [← hbody.2] at hr
        rcases mem_replaceRow hr with rfl | hr
        · exact hcluster
        · exact absurd hid (of_decide_eq_true (List.mem_filter.1 hr).2)
    have hfound' := (findRow_eq_some_iff hvalid).2 ⟨hr, hcluster, hid⟩
    rcases updateConfig_row h (prepareUpdate_enabled hprepare) hfound' with hold | ⟨old, hold, rfl, -⟩
    · cases hfound.symm.trans hold
      rfl
    · cases hfound.symm.trans hold
      rw [StorePayload.over, hunrelated.validation hstored.normal hstored.plain hprepare]
      rfl

/-- **Updates without fields.** Of the rows any calls leave, such an update keeps all but the times exactly
where the row is steady. After plain calls a row normalised again is itself, the update succeeds and keeps it,
and no unrelated update resets its validation. -/
theorem empty_update_iff (calls : List (Circumstances F × Call F))
    (hencrypt : ∀ call ∈ calls, ∀ text, call.1.encrypt text ≠ []) :
    (∀ row ∈ runCalls calls, Keeps (runCalls calls) row ↔ row.Steady) ∧
    ((∀ call ∈ calls, call.2.Plain) → ∀ row ∈ runCalls calls,
      normalizeFull (.dict row.config.items) = .ok row.config ∧ Keeps (runCalls calls) row ∧
      (∀ env : Circumstances F, env.Quiet row →
        (updateModelConfig env row.id (.dict []) (runCalls calls)).1 = .ok (.row { row with updatedAt := env.now })) ∧
      ∀ (env : Circumstances F) (payload : Value F), Unrelated payload →
        ∀ r ∈ (updateModelConfig env row.id payload (runCalls calls)).2, r.id = row.id →
          r.validation = row.validation) := by
  have hvalid := runCalls_valid calls
  have hstored : Rows.All Stored (runCalls calls) :=
    runCalls_all stored_clears fun call hcall => stored_writes (hencrypt call hcall) call.2
  refine ⟨fun row hrow => ⟨steady_of_keeps hvalid hrow (hstored row hrow),
    keeps_of_steady hvalid hrow (hstored row hrow)⟩, ?_⟩
  intro hplain row hrow
  have hplainRow : StoredPlain row.config row.secret :=
    runCalls_all storedPlain_clears (fun call hcall => storedPlain_writes call.1 (hplain call hcall)) row hrow
  have hsettled : row.config.settled = row.config := hplainRow.plain.settled
  refine ⟨?_, ?_, ?_, ?_⟩
  · rw [normalizeFull_normal_items hplainRow.normal, hsettled]
  · exact keeps_of_steady hvalid hrow (hstored row hrow) ⟨hsettled, .inl hplainRow.plain.comparable⟩
  · intro env hquiet
    obtain ⟨written, hwritten, hanswer, -⟩ := updateModelConfig_quiet hvalid hrow (hstored row hrow) hquiet
    rw [hanswer, hwritten, (unchanged_iff row.config).2 ⟨hsettled, hplainRow.plain.comparable⟩, hsettled]
    rfl
  · intro env payload hunrelated
    exact unrelated_keeps_validation hvalid hrow hplainRow env hunrelated

end Runs

theorem plainText_of_none {payload : Value ℚ} {field : Str} (h : payloadGet payload field = .ok .none) :
    PlainText payload field := by
  intro value hvalue hblank
  cases h.symm.trans hvalue
  cases hblank

/-- An agent whose provider answers. -/
def answering (now : Int) : Circumstances ℚ :=
  { unreachable now with encrypt := fun s => 'x' :: s, validate := fun _ _ => .ok "PONG" }

theorem empty_update_iff_local :
    (∀ row ∈ runCalls [(answering 0, .create localModel)],
      Keeps (runCalls [(answering 0, .create localModel)]) row ↔ row.Steady) ∧
      normalizeFull (.dict localRow.config.items) = .ok localRow.config := by
  have h := empty_update_iff [(answering 0, .create localModel)] fun call hcall text => by
    rw [List.mem_singleton.1 hcall]
    exact List.cons_ne_nil _ _
  refine ⟨h.1, (h.2 ?_ localRow ?_).1⟩
  · intro call hcall
    rw [List.mem_singleton.1 hcall]
    refine ⟨⟨?_, ?_, ?_, ?_⟩, ?_⟩
    · exact plainText_of_none rfl
    · exact plainText_of_none rfl
    · exact plainText_of_none rfl
    · exact plainText_of_none rfl
    · intro value x hvalue hblank
      cases hvalue
      cases hblank
  · exact List.mem_singleton.2 rfl

/-- A local model whose prompt is one blank. -/
def blankPrompt : Value ℚ :=
  .dict [("name", .str "local"), ("provider", .str "ollama"), ("model", .str "qwen"), ("display_name", .str "Local"),
    ("system_prompt", .str " ")]

/-- Its validation is lost to an update without fields. -/
theorem blank_prompt_resets : ¬ ∀ (calls : List (Circumstances ℚ × Call ℚ)),
    (∀ call ∈ calls, ∀ text, call.1.encrypt text ≠ []) →
    ∀ row ∈ runCalls calls, Keeps (runCalls calls) row := by
  intro h
  let calls : List (Circumstances ℚ × Call ℚ) := [(answering 0, .create blankPrompt), (answering 3, .validate 1)]
  have hencrypt : ∀ call ∈ calls, ∀ text, call.1.encrypt text ≠ [] := by
    intro call hcall text
    rcases List.mem_cons.1 hcall with rfl | hcall
    · exact List.cons_ne_nil _ _
    · rw [List.mem_singleton.1 hcall]
      exact List.cons_ne_nil _ _
  obtain ⟨row, hrows, hid⟩ : ∃ row, runCalls calls = [row] ∧ row.id = 1 := ⟨_, rfl, rfl⟩
  have htimes := h calls hencrypt row (hrows ▸ List.mem_singleton.2 rfl) (answering 5)
  rw [hid] at htimes
  have hbefore : (runCalls calls).map (·.validation) = [⟨some 3, none⟩] := by rfl
  have hafter : (updateModelConfig (answering 5) 1 (.dict []) (runCalls calls)).2.map
      (·.validation) = [.reset] := by rfl
  have hsame : (runCalls calls).map (·.validation) =
      (updateModelConfig (answering 5) 1 (.dict []) (runCalls calls)).2.map (·.validation) := by
    refine List.forall₂_eq_eq_eq ▸ List.forall₂_map_left_iff.2
      (List.forall₂_map_right_iff.2 (htimes.imp fun r r' hr => ?_))
    obtain ⟨updatedAt, rfl⟩ := hr
    rfl
  rw [hbefore, hafter] at hsame
  cases hsame

end SlurmWeb.Assistant
