import SlurmWeb.Assistant.ModelConfigStore

/-!
# Updates and validations of one configuration, interleaved

An update reads the row, prepares its fields, and writes; a validation reads the row, calls the
provider, and writes the outcome. Every call of the store is atomic, and the calls of any number of
updates and validations interleave (slurmweb/ai/service.py:353-431).

A run remembers the configurations and secrets with which the provider has answered.

* `prepareUpdate_kept` — an update that keeps the validation keeps what the provider sees.
* `marked_honest` — a row is marked validated only with what the provider has answered to, in every run
  whose writes find what their call had read.
* `marked_after_update` — the run where an update comes between.
-/

namespace SlurmWeb.Assistant

open Strings Py

variable {F : Type} [Python F] [DecidableEq F]

/-- A call on the way. -/
inductive Phase (F : Type)
  | idle
  | updating (current : Row F) (prepared : StorePayload F)
  | validating (config : Row F) (apiKey : Str)
  | succeeded (config : Row F) (apiKey : Str)
  | failed (message : Str)
  | done

/-- The table, the calls, and what the provider has answered to. -/
structure System (F : Type) where
  rows : Rows F
  calls : Nat → Phase F
  answered : List (Config F × Str)

inductive Event (F : Type)
  | readUpdate (call : Nat) (fault : Option StoreError) (encrypt : Str → Str) (payload : Value F)
  | writeUpdate (call : Nat) (faults : Faults) (now : Int)
  | readValidate (call : Nat) (fault : Option StoreError)
  | answer (call : Nat) (outcome : Except Str Str)
  | writeSuccess (call : Nat) (faults : Faults) (now : Int)
  | writeFailure (call : Nat) (faults : Faults) (now : Int)

section Runs

variable (cluster : Str) (configId : Int) (decrypt : Str → Except Str Str)

/-- What an update does with the row it reads (:353). -/
def afterUpdateRead (encrypt : Str → Str) (payload : Value F) : Except StoreError (Option (Row F)) → Phase F
  | .ok (some current) => match prepareUpdate encrypt current payload with
    | .ok prepared => .updating current prepared
    | .error _ => .done
  | _ => .done

/-- What a validation does with the row it reads (:398), up to the call of the provider. -/
def afterValidateRead : Except StoreError (Option (Row F)) → Phase F
  | .ok (some row) => match decryptSecret decrypt row.secret with
    | .ok apiKey =>
      if (row.config.provider ≠ "ollama".toList ∧ apiKey = []) ∨ row.config.provider ∉ supportedProviders then .done
      else .validating row apiKey
    | .error _ => .done
  | _ => .done

/-- After the write of a success, or the exception that turns it into a failure (:414). -/
def afterSuccessWrite : Except StoreError (Option (Row F)) → Phase F
  | .ok _ => .done
  | .error err => .failed err.message

def System.setCall (s : System F) (call : Nat) (phase : Phase F) : System F :=
  { s with calls := Function.update s.calls call phase }

/-- The validation fields of a success (:408) and of a failure (:415). -/
def validationPayload (now : Int) (error : Option Str) : StorePayload F := ⟨none, none, some ⟨some now, error⟩⟩

/-- One event; those that do not fit the call's phase change nothing. -/
def System.step (s : System F) : Event F → System F
  | .readUpdate call fault encrypt payload => match s.calls call with
    | .idle => s.setCall call (afterUpdateRead encrypt payload (getConfig fault cluster configId s.rows))
    | _ => s
  | .writeUpdate call faults now => match s.calls call with
    | .updating _ prepared =>
      { s.setCall call .done with rows := (updateConfig faults cluster configId now prepared s.rows).2 }
    | _ => s
  | .readValidate call fault => match s.calls call with
    | .idle => s.setCall call (afterValidateRead decrypt (getConfig fault cluster configId s.rows))
    | _ => s
  | .answer call outcome => match s.calls call, outcome with
    | .validating row apiKey, .ok _ =>
      { s.setCall call (.succeeded row apiKey) with answered := (row.config, apiKey) :: s.answered }
    | .validating _ _, .error message => s.setCall call (.failed message)
    | _, _ => s
  | .writeSuccess call faults now => match s.calls call with
    | .succeeded _ _ =>
      let written := updateConfig faults cluster configId now (validationPayload now none) s.rows
      { s.setCall call (afterSuccessWrite written.1) with rows := written.2 }
    | _ => s
  | .writeFailure call faults now => match s.calls call with
    | .failed message =>
      { s.setCall call .done with
        rows := (updateConfig faults cluster configId now (validationPayload now (some message)) s.rows).2 }
    | _ => s

def System.run (s : System F) (events : List (Event F)) : System F :=
  events.foldl (System.step cluster configId decrypt) s

/-- The row is marked validated. -/
def Row.Marked (row : Row F) : Prop := row.validation.lastValidatedAt.isSome ∧ row.validation.lastValidationError = none

/-- A row marked validated has the fields and the secret with which the provider has answered. -/
def Honest (s : System F) : Prop :=
  ∀ row, findRow cluster configId s.rows = some row → row.Marked →
    ∃ v ∈ s.answered, v.1.Agree row.config ∧ decryptSecret decrypt row.secret = .ok v.2

/-- No call yet, and no row marked: as the table is after the configuration was created. -/
structure Start (s : System F) : Prop where
  valid : Valid s.rows
  unmarked : ∀ row, findRow cluster configId s.rows = some row → ¬ row.Marked
  idle : ∀ call, s.calls call = .idle
  answered : s.answered = []

/-- No fault of a write that makes no default. -/
structure Faults.Clean (faults : Faults) : Prop where
  read : faults.read = Option.none
  write : faults.write = Option.none
  commit : faults.commit = Option.none

/-- The write finds what its call had read: for a success the provider's fields and the secret, for an
update that resets nothing the same, if the row is marked. -/
def Meets (s : System F) : Event F → Prop
  | .writeSuccess call faults _ => faults.Clean → ∀ config apiKey row, s.calls call = .succeeded config apiKey →
      findRow cluster configId s.rows = some row →
        config.config.Agree row.config ∧ decryptSecret decrypt row.secret = .ok apiKey
  | .writeUpdate call faults _ =>
    faults.Clean → ∀ current prepared row, s.calls call = .updating current prepared → prepared.validation = none →
      findRow cluster configId s.rows = some row → row.Marked →
        current.config.Agree row.config ∧ decryptSecret decrypt row.secret = decryptSecret decrypt current.secret
  | _ => True

/-- Every step of the run meets the condition. -/
def AllMeet : System F → List (Event F) → Prop
  | _, [] => True
  | s, event :: events =>
    Meets cluster configId decrypt s event ∧ AllMeet (s.step cluster configId decrypt event) events

end Runs

/-! ## What an update writes -/

omit [DecidableEq F] in
theorem updatedSecret_kept {encrypt : Str → Str} {current secret : Secret} {payload : Value F}
    (h : updatedSecret encrypt current payload = .ok (secret, false)) : secret = current := by
  obtain ⟨has, -, h⟩ := Except.bind_eq_ok.1 h
  obtain ⟨clear, -, h⟩ := Except.bind_eq_ok.1 h
  dsimp only at h
  split at h
  · obtain ⟨key, -, h⟩ := Except.bind_eq_ok.1 h
    split at h
    · cases h
    · split at h
      · cases h
      · cases h
        rfl
  · cases h
    rfl

/-- An update that keeps the validation keeps what the provider sees. -/
theorem prepareUpdate_kept {encrypt : Str → Str} {current : Row F} {payload : Value F} {prepared : StorePayload F}
    (h : prepareUpdate encrypt current payload = .ok prepared) : prepared.validation = some .reset ∨
      ∃ config, prepared = ⟨some config, some current.secret, none⟩ ∧ current.config.Agree config := by
  obtain ⟨updates, -, h⟩ := Except.bind_eq_ok.1 h
  obtain ⟨c, -, h⟩ := Except.bind_eq_ok.1 h
  obtain ⟨⟨secret, changed⟩, hsecret, h⟩ := Except.bind_eq_ok.1 h
  dsimp only at h
  split at h
  · cases h
  · cases h
    cases changed with
    | true => exact .inl rfl
    | false =>
      cases hfields : connectionFieldsChanged current.config c.normalizeDefaultState with
      | true => exact .inl rfl
      | false =>
        have hkept := updatedSecret_kept hsecret
        subst hkept
        exact .inr ⟨_, rfl, agree_of_unchanged hfields⟩

/-! ## What a write of the store leaves in the row -/

section Store

omit [Python F] [DecidableEq F]

theorem findRow_eq_some_iff {rows : Rows F} (h : Valid rows) {cluster : Str} {configId : Int} {row : Row F} :
    findRow cluster configId rows = some row ↔ row ∈ rows ∧ row.cluster = cluster ∧ row.id = configId := by
  constructor
  · exact findRow_mem
  · rintro ⟨hmem, rfl, rfl⟩
    cases hfound : findRow row.cluster row.id rows with
    | none =>
      have hnone := List.find?_eq_none.1 hfound row hmem
      simp at hnone
    | some found =>
      obtain ⟨hfmem, -, hid⟩ := findRow_mem hfound
      rw [List.inj_on_of_nodup_map h.ids hfmem hmem hid]

theorem attempt_ok {fault : Option StoreError} {u : Unit} (h : attempt fault = .ok u) : fault = none := by
  cases fault with
  | none => rfl
  | some => cases h

/-- The row after an update: as it was, or with the payload over it. -/
theorem updateConfig_row {rows : Rows F} (h : Valid rows) {faults : Faults} {cluster : Str} {configId now : Int}
    {payload : StorePayload F} (henabled : ∀ config, payload.config = some config → config.Enabled) {row' : Row F}
    (hrow' : findRow cluster configId (updateConfig faults cluster configId now payload rows).2 = some row') :
    findRow cluster configId rows = some row' ∨
      ∃ row, findRow cluster configId rows = some row ∧ row' = payload.over now row ∧ faults.Clean := by
  have hvalid := updateConfig_valid h faults cluster configId now henabled
  rcases updateConfig_cases faults cluster configId now payload rows with hrows | ⟨hread, row, result, hrow, hbody⟩
  · rw [hrows] at hrow'
    exact .inl hrow'
  · obtain ⟨cleared, hcleared, hbody⟩ := Except.bind_eq_ok.1 hbody
    obtain ⟨⟨⟩, hwrite, hbody⟩ := Except.bind_eq_ok.1 hbody
    obtain ⟨⟨⟩, -, hbody⟩ := Except.bind_eq_ok.1 hbody
    obtain ⟨⟨⟩, hcommit, hbody⟩ := Except.bind_eq_ok.1 hbody
    simp only [Except.pure_eq_ok, Except.ok.injEq, Prod.mk.injEq] at hbody
    rw [← hbody.2] at hrow'
    refine .inr ⟨row, hrow, ?_, hread, attempt_ok hwrite, attempt_ok hcommit⟩
    obtain ⟨hmem', -, hid'⟩ := findRow_mem hrow'
    obtain ⟨-, -, hid⟩ := findRow_mem hrow
    rcases mem_replaceRow hmem' with h | h
    · exact h
    · -- any other row of the new table has another id
      have hne := (List.mem_filter.1 h).2
      exact absurd (hid'.trans hid.symm) (of_decide_eq_true hne)

end Store

/-! ## Runs -/

/-- What a call on the way knows. -/
def PhaseOk (answered : List (Config F × Str)) : Phase F → Prop
  | .updating current prepared => ∃ encrypt payload, prepareUpdate encrypt current payload = .ok prepared
  | .succeeded config apiKey => (config.config, apiKey) ∈ answered
  | _ => True

variable (cluster : Str) (configId : Int) (decrypt : Str → Except Str Str)

structure Inv (s : System F) : Prop where
  valid : Valid s.rows
  calls : ∀ call, PhaseOk s.answered (s.calls call)
  honest : Honest cluster configId decrypt s

variable {cluster configId decrypt} {s : System F}

theorem Start.inv (h : Start cluster configId s) : Inv cluster configId decrypt s where
  valid := h.valid
  calls call := by
    rw [h.idle]
    trivial
  honest row hrow hmarked := absurd hmarked (h.unmarked row hrow)

theorem PhaseOk.mono {answered answered' : List (Config F × Str)} (h : ∀ v ∈ answered, v ∈ answered') {phase : Phase F}
    (hphase : PhaseOk answered phase) : PhaseOk answered' phase := by
  cases phase with
  | succeeded config apiKey => exact h _ hphase
  | _ => exact hphase

/-- A step that moves one call and keeps the rows. -/
theorem Inv.setCall (h : Inv cluster configId decrypt s) {call : Nat} {phase : Phase F}
    {answered : List (Config F × Str)}
    (hanswered : ∀ v ∈ s.answered, v ∈ answered) (hphase : PhaseOk answered phase) :
    Inv cluster configId decrypt { s.setCall call phase with answered } where
  valid := h.valid
  calls other := by
    by_cases hother : other = call
    · subst hother
      rw [show ({ s.setCall other phase with answered } : System F).calls other = phase from Function.update_self ..]
      exact hphase
    · rw [show ({ s.setCall call phase with answered } : System F).calls other =
        s.calls other from Function.update_of_ne hother ..]
      exact (h.calls other).mono hanswered
  honest row hrow hmarked := by
    obtain ⟨v, hv, hagree⟩ := h.honest row hrow hmarked
    exact ⟨v, hanswered v hv, hagree⟩

/-- A step that moves one call and updates the row. -/
theorem Inv.write (h : Inv cluster configId decrypt s) {call : Nat} {phase : Phase F}
    (hphase : PhaseOk s.answered phase) {faults : Faults} {now : Int} {payload : StorePayload F}
    (henabled : ∀ config, payload.config = some config → config.Enabled)
    (hhonest : faults.Clean → ∀ row, findRow cluster configId s.rows = some row → (payload.over now row).Marked →
      ∃ v ∈ s.answered, v.1.Agree (payload.over now row).config ∧
        decryptSecret decrypt (payload.over now row).secret = .ok v.2) :
    Inv cluster configId decrypt
      { s.setCall call phase with rows := (updateConfig faults cluster configId now payload s.rows).2 } where
  valid := updateConfig_valid h.valid faults cluster configId now henabled
  calls := (h.setCall (fun _ hv => hv) hphase).calls
  honest row' hrow' hmarked := by
    rcases updateConfig_row h.valid henabled hrow' with hrow | ⟨row, hrow, rfl, hclean⟩
    · exact h.honest row' hrow hmarked
    · exact hhonest hclean row hrow hmarked

theorem afterUpdateRead_ok (answered : List (Config F × Str)) (encrypt : Str → Str) (payload : Value F)
    (read : Except StoreError (Option (Row F))) : PhaseOk answered (afterUpdateRead encrypt payload read) := by
  unfold afterUpdateRead
  split
  · split
    next current prepared hprepare => exact ⟨encrypt, payload, hprepare⟩
    next => trivial
  · trivial

theorem afterValidateRead_ok (answered : List (Config F × Str)) (read : Except StoreError (Option (Row F))) :
    PhaseOk answered (afterValidateRead decrypt read) := by
  unfold afterValidateRead
  split
  · split
    · split <;> trivial
    · trivial
  · trivial

/-- A step that meets the condition keeps the invariant. -/
theorem Inv.step (h : Inv cluster configId decrypt s) {event : Event F}
    (hmeets : Meets cluster configId decrypt s event) :
    Inv cluster configId decrypt (s.step cluster configId decrypt event) := by
  have hdone : PhaseOk s.answered (.done : Phase F) := trivial
  cases event with
  | readUpdate call fault encrypt payload =>
    unfold System.step
    dsimp only
    split
    · exact h.setCall (fun _ hv => hv) (afterUpdateRead_ok _ _ _ _)
    · exact h
  | readValidate call fault =>
    unfold System.step
    dsimp only
    split
    · exact h.setCall (fun _ hv => hv) (afterValidateRead_ok _ _)
    · exact h
  | answer call outcome =>
    unfold System.step
    dsimp only
    split
    · exact h.setCall (fun _ hv => List.mem_cons_of_mem _ hv) List.mem_cons_self
    · exact h.setCall (fun _ hv => hv) trivial
    · exact h
  | writeFailure call faults now =>
    unfold System.step
    dsimp only
    split
    · refine h.write hdone (fun _ hconfig => by cases hconfig) fun _ row _ hmarked => ?_
      -- a failure leaves its text in the row
      cases hmarked.2
    · exact h
  | writeSuccess call faults now =>
    unfold System.step
    dsimp only
    split
    next config apiKey hcall =>
      have hphase : PhaseOk s.answered (afterSuccessWrite
          (updateConfig faults cluster configId now (validationPayload now none) s.rows).1 : Phase F) := by
        unfold afterSuccessWrite
        split <;> trivial
      refine h.write hphase (fun _ hconfig => by cases hconfig) fun hclean row hrow _ => ?_
      obtain ⟨hagree, hsecret⟩ := hmeets hclean config apiKey row hcall hrow
      have hanswered := h.calls call
      rw [hcall] at hanswered
      exact ⟨_, hanswered, hagree, hsecret⟩
    next => exact h
  | writeUpdate call faults now =>
    unfold System.step
    dsimp only
    split
    next current prepared hcall =>
      have hprepared := h.calls call
      rw [hcall] at hprepared
      obtain ⟨encrypt, payload, hprepare⟩ := hprepared
      refine h.write hdone (prepareUpdate_enabled hprepare) fun hclean row hrow hmarked => ?_
      rcases prepareUpdate_kept hprepare with hreset | ⟨config, rfl, hkept⟩
      · rw [Row.Marked, StorePayload.over, hreset] at hmarked
        cases hmarked.1
      · obtain ⟨v, hv, hagree, hsecret⟩ := h.honest row hrow hmarked
        obtain ⟨hcurrent, hsame⟩ := hmeets hclean current _ row hcall rfl hrow hmarked
        refine ⟨v, hv, hagree.trans (hcurrent.symm.trans hkept), ?_⟩
        show decryptSecret decrypt current.secret = .ok v.2
        rw [← hsame]
        exact hsecret
    next => exact h

/-- **A marked row has what the provider has answered to**, after every step of a run whose writes find
what their call had read. -/
theorem marked_honest (hstart : Start cluster configId s) {events : List (Event F)}
    (hmeet : AllMeet cluster configId decrypt s events) {before : List (Event F)} (hbefore : before <+: events) :
    Honest cluster configId decrypt (s.run cluster configId decrypt before) := by
  have hrun : ∀ (events before : List (Event F)) (s : System F), Inv cluster configId decrypt s →
      AllMeet cluster configId decrypt s events → before <+: events →
      Inv cluster configId decrypt (s.run cluster configId decrypt before) := by
    intro events
    induction events with
    | nil =>
      intro before s h _ hbefore
      rw [List.prefix_nil.1 hbefore]
      exact h
    | cons event events ih =>
      intro before s h hmeet hbefore
      cases before with
      | nil => exact h
      | cons first before =>
        obtain ⟨rfl, hrest⟩ := List.cons_prefix_cons.1 hbefore
        exact ih before _ (h.step hmeet.1) hmeet.2 hrest
  exact (hrun events before s hstart.inv hmeet hbefore).honest

/-- The row of the local model, as it was created. -/
def localRow : Row ℚ where
  id := 1
  cluster := "tiny"
  config :=
    { name := "local", provider := "ollama", model := "qwen", displayName := "Local", enabled := true, isDefault := true
      sortOrder := 0, baseUrl := none, deployment := none, apiVersion := none, systemPrompt :=
        none, requestTimeout := none
      temperature := none, extraOptions := [] }
  secret := ⟨none, none⟩
  validation := .reset
  createdAt := 0
  updatedAt := 0

theorem localRow_created : runCalls [(unreachable 0, .create localModel)] = [localRow] := by rfl

def created : System ℚ := ⟨[localRow], fun _ => .idle, []⟩

theorem findRow_created : findRow "tiny" 1 created.rows = some localRow := by rfl

theorem start_created : Start "tiny" 1 created where
  valid := by
    show Valid [localRow]
    rw [← localRow_created]
    exact runCalls_valid _
  unmarked row hrow hmarked := by
    rw [findRow_created] at hrow
    cases hrow
    cases hmarked.1
  idle _ := rfl
  answered := rfl

/-- A validation alone. -/
def validation : List (Event ℚ) := [.readValidate 0 none, .answer 0 (.ok "PONG"), .writeSuccess 0 .none 5]

theorem validation_meets : AllMeet "tiny" 1 .ok created validation := by
  refine ⟨trivial, trivial, ?_, trivial⟩
  intro _ config apiKey row hcall hrow
  have hsucceeded : ((created.step "tiny" 1 .ok (.readValidate 0 none)).step "tiny" 1 .ok
      (.answer 0 (.ok "PONG"))).calls 0 = .succeeded localRow [] := by rfl
  cases hsucceeded.symm.trans hcall
  cases findRow_created.symm.trans hrow
  exact ⟨.refl _, rfl⟩

theorem marked_honest_validation : Honest "tiny" 1 .ok (created.run "tiny" 1 .ok validation) :=
  marked_honest start_created validation_meets List.prefix_rfl

/-- Another model is stored while the provider answers for the first. -/
def overtaken : List (Event ℚ) :=
  [.readValidate 0 none, .answer 0 (.ok "PONG"), .readUpdate 1 none id (.dict [("model", .str "llama")]),
    .writeUpdate 1 .none 3, .writeSuccess 0 .none 5]

/-- The mark of the first configuration lands on the second. -/
theorem marked_after_update : ¬ ∀ (s : System ℚ) (events : List (Event ℚ)), Start "tiny" 1 s →
    Honest "tiny" 1 .ok (s.run "tiny" 1 .ok events) := by
  intro h
  have hhonest := h created overtaken start_created
  obtain ⟨row, hrow, hmarked, hmodel⟩ : ∃ row, findRow "tiny" 1 (created.run "tiny" 1 .ok overtaken).rows = some row ∧
      row.Marked ∧ row.config.model = "llama" := ⟨_, rfl, ⟨rfl, rfl⟩, rfl⟩
  obtain ⟨v, hv, hagree, -⟩ := hhonest row hrow hmarked
  have hanswered : (created.run "tiny" 1 .ok overtaken).answered = [(localRow.config, [])] := by rfl
  rw [hanswered] at hv
  cases List.mem_singleton.1 hv
  exact absurd (hagree.model.trans hmodel) (by decide)

end SlurmWeb.Assistant
