import SlurmWeb.Slurmrestd.Jobs
import SlurmWeb.Lib.JsNumber
import SlurmWeb.Lib.Split
import SlurmWeb.Lib.Facets

/-!
# Filters of the jobs page (frontend/src/views/JobsView.vue, stores/runtime/jobs.ts)

The page sends its filters to the agent, which selects jobs of its cached list by them, and filters the answer once
more. The values are trimmed for the agent and not for the page.

| here | there |
| --- | --- |
| `JobsViewFilters`, `ClusterJob` | `JobsViewFilters` (jobs.ts :19), the fields of `ClusterJob` that it reads |
| `emptyFilters`, `matchesFilters` | :91, :100 |
| `fromURL` | the filters of a query string (JobsView.vue :345) |
| `commaSeparated`, `buildJobsQuery` | :84, :89 |
| `buildJobsQueryString` | composables/GatewayAPI.ts :1729 |
| `Slurmrestd.listing` | the agent's selection, in Slurmrestd/Jobs.lean |

* `matchesFilters_iff`, `listing_eq` — both sides as a condition on each filter.
* `filters_agree_iff` — when the page and the agent select the same jobs.
* `untrimmed_filter_dropped` — a blank before a name hides its jobs.
-/

namespace SlurmWeb.Frontend

open Strings Py Assistant Slurmrestd

variable {F : Type} [Python F]

/-! ## The page -/

inductive Filter
  | users | states | accounts | qos | partitions
deriving DecidableEq

/-- The filters, in the order of the query. -/
def Filter.all : List Filter := [.users, .states, .accounts, .qos, .partitions]

def Filter.key : Filter → Str
  | .users => "users"
  | .states => "states"
  | .accounts => "accounts"
  | .qos => "qos"
  | .partitions => "partitions"

/-- `JobsViewFilters` (jobs.ts :19) -/
structure JobsViewFilters where
  states : List Str
  users : List Str
  accounts : List Str
  qos : List Str
  partitions : List Str

structure ClusterJob where
  job_state : List Str
  user_name : Str
  account : Str
  qos : Str
  partition : Str

namespace JobsViewFilters

variable (filters : JobsViewFilters)

def values : Filter → List Str
  | .users => filters.users
  | .states => filters.states
  | .accounts => filters.accounts
  | .qos => filters.qos
  | .partitions => filters.partitions

/-- `emptyFilters` (:91) -/
def emptyFilters : Bool :=
  filters.states.length == 0 && filters.users.length == 0 && filters.accounts.length == 0 &&
    filters.qos.length == 0 && filters.partitions.length == 0

/-- `matchesFilters` (:100), `lower` being `toLocaleLowerCase`. -/
def matchesFilters (lower : Str → Str) (job : ClusterJob) : Bool :=
  if filters.emptyFilters then true
  else if filters.states.length ≠ 0 ∧
      ¬ filters.states.any (fun state => decide (lower state ∈ job.job_state.map lower)) then false
  else if filters.users.length ≠ 0 ∧ ¬ filters.users.any (fun user => lower user == lower job.user_name) then false
  else if filters.accounts.length ≠ 0 ∧
      ¬ filters.accounts.any (fun account => lower account == lower job.account) then false
  else if filters.qos.length ≠ 0 ∧ ¬ filters.qos.any (fun qos => lower qos == lower job.qos) then false
  else if filters.partitions.length ≠ 0 ∧
      ¬ filters.partitions.any (fun partition => lower partition == lower job.partition) then false
  else true

end JobsViewFilters

/-- The names of a job that a filter is about. -/
def ClusterJob.names (job : ClusterJob) : Filter → List Str
  | .users => [job.user_name]
  | .states => job.job_state
  | .accounts => [job.account]
  | .qos => [job.qos]
  | .partitions => [job.partition]

/-- `route.query.x ? route.query.x.split(',') : []` -/
def filterValues : Option Str → List Str
  | some text => if text = [] then [] else text.splitOn ','
  | none => []

/-- The filters of a query string (JobsView.vue :345). -/
def fromURL (query : Filter → Option Str) : JobsViewFilters where
  states := filterValues (query .states)
  users := filterValues (query .users)
  accounts := filterValues (query .accounts)
  qos := filterValues (query .qos)
  partitions := filterValues (query .partitions)

/-- `value.trim()` -/
def trim (value : Str) : Str := stripBy Js.isWhiteSpace value

/-- `commaSeparated` (:84) -/
def commaSeparated (values : List Str) : Option Str :=
  let normalized := (values.map trim).filter (·.length > 0)
  if normalized.length ≠ 0 then some ([','].intercalate normalized) else none

/-- `buildJobsQuery` (:89) -/
def buildJobsQuery (filters : JobsViewFilters) : Option (List (Str × Option Str)) :=
  let query : List (Str × Option Str) :=
    [("users", commaSeparated filters.users), ("states", commaSeparated filters.states),
      ("accounts", commaSeparated filters.accounts), ("qos", commaSeparated filters.qos),
      ("partitions", commaSeparated filters.partitions)]
  if query.any (·.2.isSome) then some query else none

/-- The parameters `buildJobsQueryString` (GatewayAPI.ts :1729) appends. -/
def buildJobsQueryString : Option (List (Str × Option Str)) → List (Str × Str)
  | none => []
  | some query => query.filterMap fun entry => (entry.2.filter (· ≠ [])).map (entry.1, ·)

def text? : Value F → Option Str
  | .str text => some text
  | _ => none

/-- The job as the page reads it. -/
def readJob : Value F → Option ClusterJob
  | .dict job =>
    match Value.lookup job "job_state", Value.lookup job "user_name", Value.lookup job "account",
      Value.lookup job "qos", Value.lookup job "partition" with
    | some (.list states), some (.str user), some (.str account), some (.str qos), some (.str partition) =>
      (states.mapM text?).map fun states => ⟨states, user, account, qos, partition⟩
    | _, _, _, _, _ => none
  | _ => none

/-- What the page keeps of a list. -/
def shows (lower : Str → Str) (filters : JobsViewFilters) (job : Value F) : Bool :=
  (readJob job).any (filters.matchesFilters lower)

/-! ## Both sides, filter by filter -/

/-- A name in lower case is one of the values, where there are any values. -/
def Keeps (lower : Str → Str) (values names : List Str) : Prop := values = [] ∨ ∃ name ∈ names, lower name ∈ values

/-- The values the agent reads. -/
def sent (values : List Str) : List Str :=
  ((((values.map trim).filter (·.length > 0)).map strip).filter (· ≠ []))

theorem forall_filter {p : Filter → Prop} : (∀ f, p f) ↔ p .users ∧ p .states ∧ p .accounts ∧
    p .qos ∧ p .partitions := by
  constructor
  · intro h
    exact ⟨h _, h _, h _, h _, h _⟩
  · rintro ⟨husers, hstates, haccounts, hqos, hpartitions⟩ f
    cases f <;> assumption

theorem keeps_single {lower : Str → Str} {values : List Str} {name : Str} :
    Keeps lower (values.map lower) [name] ↔
      ¬ (values.length ≠ 0 ∧ ¬ values.any (fun value => lower value == lower name)) := by
  simp only [Keeps, List.map_eq_nil_iff, List.mem_singleton, exists_eq_left, List.mem_map, List.length_eq_zero_iff,
    ne_eq, not_and, not_not, List.any_eq_true, beq_iff_eq]
  tauto

theorem keeps_list {lower : Str → Str} {values names : List Str} :
    Keeps lower (values.map lower) names ↔
      ¬ (values.length ≠ 0 ∧ ¬ values.any (fun value => decide (lower value ∈ names.map lower))) := by
  simp only [Keeps, List.map_eq_nil_iff, List.mem_map, List.length_eq_zero_iff, ne_eq, not_and, not_not,
    List.any_eq_true, decide_eq_true_eq]
  constructor
  · rintro (hnil | ⟨name, hname, value, hvalue, heq⟩) hne
    · exact absurd hnil hne
    · exact ⟨value, hvalue, name, hname, heq.symm⟩
  · intro h
    by_cases hnil : values = []
    · exact .inl hnil
    · obtain ⟨value, hvalue, name, hname, heq⟩ := h hnil
      exact .inr ⟨name, hname, value, hvalue, heq.symm⟩

theorem matchesFilters_iff (lower : Str → Str) (filters : JobsViewFilters) (job : ClusterJob) :
    filters.matchesFilters lower job = true ↔ ∀ f, Keeps lower ((filters.values f).map lower) (job.names f) := by
  rw [forall_filter]
  change _ ↔ Keeps lower (filters.users.map lower) [job.user_name] ∧
    Keeps lower (filters.states.map lower) job.job_state ∧
    Keeps lower (filters.accounts.map lower) [job.account] ∧ Keeps lower (filters.qos.map lower) [job.qos] ∧
    Keeps lower (filters.partitions.map lower) [job.partition]
  rw [@keeps_list lower filters.states, @keeps_single lower filters.users, @keeps_single lower filters.accounts,
    @keeps_single lower filters.qos, @keeps_single lower filters.partitions, JobsViewFilters.matchesFilters]
  by_cases hempty : filters.emptyFilters = true
  · rw [if_pos hempty]
    simp only [JobsViewFilters.emptyFilters, Bool.and_eq_true, beq_iff_eq] at hempty
    obtain ⟨⟨⟨⟨hstates, husers⟩, haccounts⟩, hqos⟩, hpartitions⟩ := hempty
    simp [hstates, husers, haccounts, hqos, hpartitions]
  · rw [if_neg hempty]
    simp only [Bool.if_false_left, Bool.if_true_right, Bool.and_eq_true, Bool.or_false, Bool.not_eq_true',
      decide_eq_false_iff_not]
    tauto

/-! ## The query -/

/-- The query of the filters, as the agent receives it. -/
def queryParams (filters : JobsViewFilters) : List (Str × Str) := buildJobsQueryString (buildJobsQuery filters)

theorem commaSeparated_eq (values : List Str) : commaSeparated values =
    if (values.map trim).filter (·.length > 0) ≠ [] then
      some ([','].intercalate ((values.map trim).filter (·.length > 0)))
    else none := by
  rw [commaSeparated]
  simp only [ne_eq, List.length_eq_zero_iff]

theorem commaSeparated_nonempty (values : List Str) :
    (commaSeparated values).filter (· ≠ []) = commaSeparated values := by
  rw [commaSeparated_eq]
  split
  · next hne =>
    obtain ⟨value, rest, hcons⟩ := List.exists_cons_of_ne_nil hne
    have hvalue : value ∈ (values.map trim).filter (·.length > 0) := hcons ▸ List.mem_cons_self
    have hlong : 0 < value.length := by simpa using (List.mem_filter.1 hvalue).2
    have hjoined : [','].intercalate (value :: rest) ≠ [] := by
      intro hnil
      cases rest with
      | nil => exact (List.length_pos_iff.1 hlong) (by simpa using hnil)
      | cons => simp [List.intercalate_cons_cons] at hnil
    rw [hcons, Option.filter_some, if_pos (by simpa using hjoined)]
  · rfl

theorem queryParams_eq (filters : JobsViewFilters) :
    queryParams filters = Filter.all.filterMap fun f => (commaSeparated (filters.values f)).map (f.key, ·) := by
  have hquery : (Filter.all.map fun f => (f.key, commaSeparated (filters.values f))).filterMap
      (fun entry => (entry.2.filter (· ≠ [])).map (entry.1, ·)) =
      Filter.all.filterMap fun f => (commaSeparated (filters.values f)).map (f.key, ·) := by
    rw [List.filterMap_map]
    exact List.filterMap_congr fun f _ => congrArg (Option.map (f.key, ·)) (commaSeparated_nonempty _)
  rw [← hquery, queryParams, buildJobsQuery]
  change buildJobsQueryString (if (Filter.all.map fun f => (f.key, commaSeparated (filters.values f))).any (·.2.isSome)
    then some (Filter.all.map fun f => (f.key, commaSeparated (filters.values f))) else none) = _
  split
  · rfl
  · next hnone =>
    refine (List.filterMap_eq_nil_iff.2 fun entry hentry => ?_).symm
    have hentry : entry.2 = none := by
      simp only [List.any_eq_true, not_exists, not_and, Bool.not_eq_true, Option.isSome_eq_false_iff] at hnone
      simpa using hnone entry hentry
    rw [hentry]
    rfl

theorem Filter.mem_all (f : Filter) : f ∈ Filter.all := by cases f <;> decide

theorem key_injective : Function.Injective Filter.key := fun f g h =>
  List.inj_on_of_nodup_map (l := Filter.all) (by decide) f.mem_all g.mem_all h

/-- A filter's parameter is the only one under its name. -/
theorem filter_key (h : Filter → Option Str) (f : Filter) : ∀ {l : List Filter}, l.Nodup →
    (l.filterMap fun g => (h g).map (g.key, ·)).filter (·.1 == f.key) =
      if f ∈ l then ((h f).map (f.key, ·)).toList else []
  | [], _ => rfl
  | g :: l, hnodup => by
    obtain ⟨hg, hl⟩ := List.nodup_cons.1 hnodup
    have ih := filter_key h f hl
    rcases eq_or_ne f g with rfl | hne
    · rw [if_neg hg] at ih
      rw [List.filterMap_cons, if_pos List.mem_cons_self]
      cases h f with
      | none => exact ih
      | some text => rw [Option.map_some, List.filter_cons_of_pos (by simp), ih]; rfl
    · have hkey : (g.key == f.key) = false := by simpa using fun hkey => hne (key_injective hkey).symm
      have hmem : (f ∈ g :: l) ↔ f ∈ l := by simp [hne]
      simp only [hmem]
      rw [List.filterMap_cons, ← ih]
      cases h g with
      | none => rfl
      | some text => rw [Option.map_some, List.filter_cons_of_neg (by simp [hkey])]

/-- The values that the agent reads of a filter's parameter. -/
theorem queryValues_eq {filters : JobsViewFilters}
    (hcommas : ∀ f, ∀ value ∈ filters.values f, ',' ∉ value) (f : Filter) :
    queryValues (queryParams filters) f.key = sent (filters.values f) := by
  rw [queryValues, queryParams_eq, filter_key _ f (by decide), if_pos f.mem_all, sent, commaSeparated_eq]
  split
  · next hne =>
    have hpieces : ∀ value ∈ (filters.values f |>.map trim).filter (·.length > 0), value.splitOn ',' = [value] := by
      intro value hvalue
      obtain ⟨full, hfull, rfl⟩ := List.mem_map.1 (List.mem_filter.1 hvalue).1
      exact List.splitOn_eq_singleton fun hcomma => hcommas f full hfull (mem_stripBy hcomma)
    rw [Option.map_some, Option.toList_some, List.flatMap_singleton, splitOn_intercalate_eq ',' hne,
      List.flatMap_congr hpieces, List.flatMap_singleton']
  · next hnil => rw [not_not.1 hnil]; rfl

/-! ## The agent -/

omit [Python F] in
theorem lookup_filterMap (h : Str → Option (Value F)) (key : Str) : ∀ {l : List Str}, l.Nodup →
    Value.lookup (l.filterMap fun name => (h name).map (name, ·)) key = if key ∈ l then h key else none
  | [], _ => rfl
  | name :: l, hnodup => by
    obtain ⟨hname, hl⟩ := List.nodup_cons.1 hnodup
    have ih := lookup_filterMap h key hl
    rw [List.filterMap_cons]
    rcases eq_or_ne key name with rfl | hne
    · rw [if_neg hname] at ih
      rw [if_pos List.mem_cons_self]
      cases hv : h key with
      | none => exact ih
      | some v => simp [Value.lookup]
    · have hmem : (key ∈ name :: l) ↔ key ∈ l := by simp [hne]
      simp only [hmem]
      rw [← ih]
      cases h name with
      | none => rfl
      | some v => rw [Option.map_some]; dsimp only; rw [Value.lookup, if_neg (Ne.symm hne)]

/-- The names of `_jobs_query_args` (views/agent.py :91) -/
def argNames : List Str := ["users", "states", "accounts", "qos", "partitions"]

omit [Python F] in
theorem lookup_jobsQueryArgs (args : List (Str × Str)) (key : Str) :
    Value.lookup (jobsQueryArgs args : Arguments F) key =
      if key ∈ argNames ∧ queryValues args key ≠ [] then some (.list ((queryValues args key).map .str)) else none := by
  have hargs : (jobsQueryArgs args : Arguments F) = argNames.filterMap fun name =>
      (if queryValues args name ≠ [] then some (Value.list ((queryValues args name).map .str)) else none).map
        (name, ·) := by
    rw [jobsQueryArgs, ← List.filterMap_eq_map, ← List.filterMap_eq_filter, List.filterMap_filterMap]
    refine List.filterMap_congr fun name _ => ?_
    by_cases hnil : queryValues args name = [] <;> simp [hnil, Option.guard]
  rw [hargs, lookup_filterMap _ _ (by decide)]
  by_cases hkey : key ∈ argNames <;> simp [hkey]

/-- The values of a query that are already trimmed. -/
theorem splitQueryValues_list (client : Client F) {values : List Str} (htrimmed : ∀ value ∈ values, strip value = value)
    (hnonempty : [] ∉ values) : client.splitQueryValues (.list (values.map .str)) = values.map client.lower := by
  have htexts : (values.map (.str : Str → Value F)).map Value.toStr = values := by
    rw [List.map_map]
    exact List.map_id _
  have hkept : values.filter (strip · ≠ []) = values := by
    refine List.filter_eq_self.2 fun value hvalue => ?_
    rw [htrimmed value hvalue]
    exact decide_eq_true fun hnil => hnonempty (hnil ▸ hvalue)
  unfold Client.splitQueryValues
  rw [if_neg (by simp [Value.isBlank])]
  dsimp only
  rw [htexts, hkept]
  exact List.map_congr_left fun value hvalue => congrArg client.lower (htrimmed value hvalue)

theorem sent_trimmed {values : List Str} : ∀ value ∈ sent values, strip value = value := by
  intro value hvalue
  obtain ⟨full, -, rfl⟩ := List.mem_map.1 (List.mem_filter.1 hvalue).1
  exact strip_strip full

theorem sent_nonempty {values : List Str} : [] ∉ sent values := by
  intro hnil
  simpa using (List.mem_filter.1 hnil).2

theorem splitQueryValues_args (client : Client F) {filters : JobsViewFilters}
    (hcommas : ∀ f, ∀ value ∈ filters.values f, ',' ∉ value) (f : Filter) :
    client.splitQueryValues (Value.get (jobsQueryArgs (queryParams filters)) f.key) =
      (sent (filters.values f)).map client.lower := by
  have hkey : f.key ∈ argNames := by cases f <;> decide
  rw [Value.get, Value.getOr, lookup_jobsQueryArgs, queryValues_eq hcommas]
  by_cases hnil : sent (filters.values f) = []
  · rw [hnil, if_neg (by simp)]
    rfl
  · rw [if_pos ⟨hkey, hnil⟩, Option.getD_some]
    exact splitQueryValues_list client sent_trimmed sent_nonempty

omit [Python F] in
theorem get_singular (args : List (Str × Str)) {key : Str} (h : key ∉ argNames) :
    Value.get (jobsQueryArgs args : Arguments F) key = .none := by
  rw [Value.get, Value.getOr, lookup_jobsQueryArgs, if_neg fun hboth => h hboth.1]
  rfl

omit [Python F] in
theorem mapM_text {texts : List Str} : (texts.map (.str : Str → Value F)).mapM text? = some texts := by
  induction texts with
  | nil => rfl
  | cons text texts ih => rw [List.map_cons, List.mapM_cons, ih]; rfl

omit [Python F] in
theorem texts_of_mapM : ∀ {values : List (Value F)} {texts : List Str}, values.mapM text? = some texts →
    values = texts.map .str
  | [], texts, h => by
    cases h
    rfl
  | value :: values, texts, h => by
    rw [List.mapM_cons] at h
    cases value with
    | str text =>
      cases hrest : values.mapM (text? (F := F)) with
      | none => rw [hrest] at h; cases h
      | some rest =>
        rw [hrest] at h
        cases h
        rw [texts_of_mapM hrest]
        rfl
    | _ => cases h

omit [Python F] in
theorem readJob_dict {v : Value F} {job : ClusterJob} (h : readJob v = some job) : ∃ items, v = .dict items ∧
    Value.lookup items "job_state" = some (.list (job.job_state.map .str)) ∧
    Value.lookup items "user_name" = some (.str job.user_name) ∧
      Value.lookup items "account" = some (.str job.account) ∧
    Value.lookup items "qos" = some (.str job.qos) ∧ Value.lookup items "partition" = some (.str job.partition) := by
  cases v with
  | dict items =>
    refine ⟨items, rfl, ?_⟩
    rw [readJob] at h
    split at h
    · next states user account qos partition hstates huser haccount hqos hpartition =>
      obtain ⟨texts, htexts, rfl⟩ := Option.map_eq_some_iff.1 h
      exact ⟨texts_of_mapM htexts ▸ hstates, huser, haccount, hqos, hpartition⟩
    · cases h
  | _ => cases h

instance (lower : Str → Str) (values names : List Str) : Decidable (Keeps lower values names) :=
  inferInstanceAs (Decidable (_ ∨ _))

/-- A check that ends in `return False`, before the others. -/
theorem check_eq {ε : Type} {c q : Prop} [Decidable c] [Decidable q] {rest : Except ε Bool}
    (h : rest = .ok (decide q)) : (if c then return false else rest) = .ok (decide (¬ c ∧ q)) := by
  by_cases hc : c
  · rw [if_pos hc, decide_eq_false fun hboth => hboth.1 hc]
    rfl
  · rw [if_neg hc, h]
    simp [hc]

theorem keeps_name {lower : Str → Str} {values : List Str} {name : Str} :
    Keeps lower values [name] ↔ ¬ (values ≠ [] ∧ lower name ∉ values) := by
  simp only [Keeps, List.mem_singleton, exists_eq_left]
  tauto

/-- `matches` as a condition on each filter. -/
theorem matches_eq (client : Client F) (values : Filter → List Str) {items : Arguments F} {job : ClusterJob}
    (h : readJob (.dict items) = some job) :
    client.matches_ (values .users) (values .states) (values .accounts) (values .qos) (values .partitions) items =
      .ok (decide (∀ f ∈ Filter.all, Keeps client.lower (values f) (job.names f))) := by
  obtain ⟨_, heq, hstates, huser, haccount, hqos, hpartition⟩ := readJob_dict h
  cases heq
  have hfield : ∀ {key : Str} {text : Str}, Value.lookup items key = some (.str text) →
      client.lowerField items key = client.lower text := fun {key text} hlookup => by
    rw [Client.lowerField, Value.getOr, hlookup]
    rfl
  have hlast : (if values .states ≠ [] then do
        let jobStates ← (Value.list (job.job_state.map .str) : Value F).iterate
        return (values .states).any fun state => state ∈ jobStates.map fun jobState => client.lower jobState.toStr
      else return true) = (.ok (decide (Keeps client.lower (values .states) job.job_state)) :
        Except Py.Error Bool) := by
    have hlowered : ((job.job_state.map (.str : Str → Value F)).map fun jobState => client.lower jobState.toStr) =
        job.job_state.map client.lower := by
      rw [List.map_map]
      rfl
    by_cases hnil : values .states = []
    · rw [if_neg (not_not.2 hnil), decide_eq_true (.inl hnil)]
      rfl
    · rw [if_pos hnil, Value.iterate, Except.ok_bind, hlowered, Except.pure_eq_ok]
      refine congrArg Except.ok (Bool.eq_iff_iff.2 ?_)
      simp only [List.any_eq_true, decide_eq_true_eq, List.mem_map, Keeps, hnil, false_or]
      constructor
      · rintro ⟨state, hstate, name, hname, rfl⟩
        exact ⟨name, hname, hstate⟩
      · rintro ⟨name, hname, hstate⟩
        exact ⟨_, hstate, name, hname, rfl⟩
  rw [Client.matches_, hfield huser, hfield haccount, hfield hqos, hfield hpartition, Value.getOr, hstates,
    Option.getD_some, check_eq (check_eq (check_eq (check_eq hlast)))]
  refine congrArg Except.ok (decide_eq_decide.2 ?_)
  simp only [Filter.mem_all, true_imp_iff, forall_filter, ClusterJob.names, keeps_name]
  tauto

/-- What the agent selects of a list. -/
def selects (client : Client F) (filters : JobsViewFilters) (job : Value F) : Bool :=
  (readJob job).any fun job =>
    decide (∀ f ∈ Filter.all, Keeps client.lower ((sent (filters.values f)).map client.lower) (job.names f))

theorem filterCachedJobs_eq (client : Client F) {filters : JobsViewFilters}
    (hcommas : ∀ f, ∀ value ∈ filters.values f, ',' ∉ value) {jobs : List (Value F)}
    (hjobs : ∀ job ∈ jobs, (readJob job).isSome) :
    client.filterCachedJobs jobs (jobsQueryArgs (queryParams filters)) =
      .ok (jobs.filter (selects client filters)) := by
  -- the agent knows four of the filters under a second name, that the page does not use
  have hvalue : ∀ (f : Filter) (key : Str), key ∉ argNames → client.splitQueryValues
      ((Value.get (jobsQueryArgs (queryParams filters)) key).or
        (Value.get (jobsQueryArgs (queryParams filters)) f.key)) =
        (sent (filters.values f)).map client.lower := fun f key hkey => by
    rw [get_singular _ hkey]
    exact splitQueryValues_args client hcommas f
  refine Except.filterE_eq_filter fun v hv => ?_
  obtain ⟨job, hread⟩ := Option.isSome_iff_exists.1 (hjobs v hv)
  obtain ⟨items, rfl, -⟩ := readJob_dict hread
  rw [selects, hread, Option.any_some, ← matches_eq client (fun f => (sent (filters.values f)).map client.lower) hread]
  dsimp only
  rw [← hvalue .users "user" (by decide), ← hvalue .states "state" (by decide),
    ← hvalue .accounts "account" (by decide), ← hvalue .partitions "partition" (by decide),
    ← splitQueryValues_args client hcommas .qos]
  rfl

theorem nodeOfQuery_queryParams (filters : JobsViewFilters) : nodeOfQuery (queryParams filters) = none := by
  have hfind : (queryParams filters).find? (·.1 == "node".toList) = none := by
    rw [List.find?_eq_none, queryParams_eq]
    intro param hparam
    obtain ⟨f, -, hf⟩ := List.mem_filterMap.1 hparam
    obtain ⟨text, -, rfl⟩ := Option.map_eq_some_iff.1 hf
    exact ne_true_of_eq_false (by cases f <;> decide : (f.key == "node".toList) = false)
  rw [nodeOfQuery, queryArgument, hfind]
  rfl

omit [Python F] in
theorem sent_of_no_args {filters : JobsViewFilters} (hcommas : ∀ f, ∀ value ∈ filters.values f, ',' ∉ value)
    (h : (jobsQueryArgs (queryParams filters) : Arguments F) = []) (f : Filter) : sent (filters.values f) = [] := by
  by_contra hne
  have hkey : f.key ∈ argNames := by cases f <;> decide
  have hlookup := lookup_jobsQueryArgs (F := F) (queryParams filters) f.key
  rw [queryValues_eq hcommas, if_pos ⟨hkey, hne⟩, h] at hlookup
  cases hlookup

/-- The agent's answer, its cache enabled. -/
theorem listing_eq {client : Client F} {cluster : Cluster F} {user : User} {scope : Str} {filters : JobsViewFilters}
    {jobs : List (Value F)} (hcommas : ∀ f, ∀ value ∈ filters.values f, ',' ∉ value)
      (hcache : client.cacheEnabled = true)
    (hscope : scope ≠ "self".toList) (hall : client.jobs cluster none = .ok jobs)
    (hjobs : ∀ job ∈ jobs, (readJob job).isSome) :
    listing client cluster user scope (queryParams filters) = .ok (jobs.filter (selects client filters)) := by
  rw [listing, nodeOfQuery_queryParams]
  dsimp only
  rw [if_neg hscope]
  by_cases hargs : (jobsQueryArgs (queryParams filters) : Arguments F) = []
  · have hevery : jobs.filter (selects client filters) = jobs := by
      refine List.filter_eq_self.2 fun v hv => ?_
      obtain ⟨job, hread⟩ := Option.isSome_iff_exists.1 (hjobs v hv)
      rw [selects, hread, Option.any_some]
      refine decide_eq_true fun f _ => .inl ?_
      rw [sent_of_no_args hcommas hargs f, List.map_nil]
    rw [if_neg (not_not.2 hargs), hevery, hall]
  · have hcached : client.cached cluster.cachedJobs (client.filteredJobs cluster none) = .ok jobs := hall
    rw [if_pos hargs, Client.jobs, if_pos ⟨hargs, hcache⟩, hcached, Except.ok_bind,
      filterCachedJobs_eq client hcommas hjobs]
    rfl

/-! ## Agreement -/

/-- A name as jobs bear it: ASCII, without commas or surrounding blanks. -/
structure JobName (name : Str) : Prop where
  ascii : ∀ c ∈ name, c.toNat ≤ 127
  noComma : ',' ∉ name
  trimmed : strip name = name

instance : DecidablePred JobName := fun name =>
  decidable_of_iff (name.all (·.toNat ≤ 127) = true ∧ ',' ∉ name ∧ strip name = name)
    ⟨fun h => ⟨fun c hc => of_decide_eq_true (List.all_eq_true.1 h.1 c hc), h.2.1, h.2.2⟩,
      fun h => ⟨List.all_eq_true.2 fun c hc => decide_eq_true (h.ascii c hc), h.noComma, h.trimmed⟩⟩

/-- A job of a list, its names as jobs bear them. -/
def Listed (v : Value F) : Prop := ∃ job, readJob v = some job ∧ ∀ f, ∀ name ∈ job.names f, JobName name

/-- Lower case of ASCII texts, in JavaScript in a locale with the plain one. -/
def AsciiLower (lower : Str → Str) : Prop := ∀ name : Str, (∀ c ∈ name, c.toNat ≤ 127) →
  lower name = name.map Char.toLower

/-- The agent selects what the page keeps of the full list, and the page removes nothing of it. -/
def Agrees (client : Client F) (jsLower : Str → Str) (user : User) (scope : Str) (filters : JobsViewFilters) : Prop :=
  ∀ (cluster : Cluster F) (jobs : List (Value F)), client.jobs cluster none = .ok jobs → (∀ job ∈ jobs, Listed job) →
    ∃ selected, listing client cluster user scope (queryParams filters) = .ok selected ∧
      selected = jobs.filter (shows jsLower filters) ∧ selected.filter (shows jsLower filters) = selected

/-- What a job name may be in lower case. -/
def LowerName (name : Str) : Prop := ∃ full, JobName full ∧ full.map Char.toLower = name

/-- Trimming leaves a value, and the same job names among the values. -/
def SameNames (client : Client F) (jsLower : Str → Str) (values : List Str) : Prop :=
  values = [] ∨ sent values ≠ [] ∧ ∀ name, LowerName name →
    (name ∈ values.map jsLower ↔ name ∈ (sent values).map client.lower)

/-- There are values, and no job name among them. -/
def NoName (values : List Str) : Prop := values ≠ [] ∧ ∀ name, LowerName name → name ∉ values

/-- The names a job may bear for a filter. -/
abbrev Names (f : Filter) :=
  {names : List Str // (∀ name ∈ names, JobName name) ∧ (f ≠ .states → ∃ name, names = [name])}

def Names.single (f : Filter) {name : Str} (h : JobName name) : Names f :=
  ⟨[name], fun _ hname => List.mem_singleton.1 hname ▸ h, fun _ => ⟨name, rfl⟩⟩

theorem jobName_replicate (n : Nat) : JobName (List.replicate n 'a') where
  ascii c hc := by rw [(List.mem_replicate.1 hc).2]; decide
  noComma h := by cases (List.mem_replicate.1 h).2
  trimmed := by
    refine strip_eq_self ⟨fun c hc => ?_, fun c hc => ?_⟩
    · rw [(List.mem_replicate.1 (List.mem_of_mem_head? hc)).2]
      decide
    · rw [(List.mem_replicate.1 (List.mem_of_getLast? hc)).2]
      decide

/-- No list of values holds all names. -/
theorem exists_lowerName (values : List Str) : ∃ name, JobName name ∧ name.map Char.toLower ∉ values := by
  refine ⟨List.replicate ((values.map List.length).sum + 1) 'a', jobName_replicate _, fun hmem => ?_⟩
  have hle := List.le_sum_of_mem (List.mem_map_of_mem (f := List.length) hmem)
  rw [List.length_map, List.length_replicate] at hle
  omega

theorem keeps_single_iff {lower : Str → Str} (hlower : AsciiLower lower) {values : List Str}
    (hne : values ≠ []) {f : Filter}
    {name : Str} (h : JobName name) : Keeps lower values (Names.single f h).1 ↔ name.map Char.toLower ∈ values := by
  simp [Keeps, Names.single, hne, hlower name h.ascii]

theorem keeps_none_iff {lower : Str → Str} (hlower : AsciiLower lower) {values : List Str} (f : Filter) :
    (∀ names : Names f, ¬ Keeps lower values names.1) ↔ NoName values := by
  constructor
  · intro h
    have hne : values ≠ [] := fun hnil => h (Names.single f (jobName_replicate 0)) (.inl hnil)
    refine ⟨hne, ?_⟩
    rintro _ ⟨name, hname, rfl⟩ hmem
    exact h (Names.single f hname) ((keeps_single_iff hlower hne hname).2 hmem)
  · rintro ⟨hne, hnone⟩ ⟨names, hnames, _⟩ (hnil | ⟨name, hname, hmem⟩)
    · exact hne hnil
    · rw [hlower name (hnames name hname).ascii] at hmem
      exact hnone _ ⟨name, hnames name hname, rfl⟩ hmem

/-- Where there are values, some name is not among them. -/
theorem not_keeps_all {lower : Str → Str} (hlower : AsciiLower lower) {values : List Str}
    (hne : values ≠ []) (f : Filter) : ∃ names : Names f, ¬ Keeps lower values names.1 := by
  obtain ⟨name, hname, hnot⟩ := exists_lowerName values
  exact ⟨Names.single f hname, fun hkeeps => hnot ((keeps_single_iff hlower hne hname).1 hkeeps)⟩

theorem keeps_same_iff {jsLower lower : Str → Str} (hjs : AsciiLower jsLower) (hlower : AsciiLower lower)
    {a b : List Str} (f : Filter) : (∀ names : Names f, Keeps jsLower a names.1 ↔ Keeps lower b names.1) ↔
      a = [] ∧ b = [] ∨ a ≠ [] ∧ b ≠ [] ∧ ∀ name, LowerName name → (name ∈ a ↔ name ∈ b) := by
  constructor
  · intro h
    rcases eq_or_ne a [] with ha | ha
    · rcases eq_or_ne b [] with hb | hb
      · exact .inl ⟨ha, hb⟩
      · obtain ⟨names, hnot⟩ := not_keeps_all hlower hb f
        exact absurd ((h names).1 (.inl ha)) hnot
    · rcases eq_or_ne b [] with hb | hb
      · obtain ⟨names, hnot⟩ := not_keeps_all hjs ha f
        exact absurd ((h names).2 (.inl hb)) hnot
      · refine .inr ⟨ha, hb, ?_⟩
        rintro _ ⟨name, hname, rfl⟩
        exact (keeps_single_iff hjs ha hname).symm.trans ((h _).trans (keeps_single_iff hlower hb hname))
  · rintro (⟨rfl, rfl⟩ | ⟨ha, hb, hsame⟩) ⟨names, hnames, _⟩
    · exact iff_of_true (.inl rfl) (.inl rfl)
    · simp only [Keeps, ha, hb, false_or]
      refine exists_congr fun name => and_congr_right fun hmem => ?_
      have hname := hnames name hmem
      rw [hjs name hname.ascii, hlower name hname.ascii]
      exact hsame _ ⟨name, hname, rfl⟩

/-- A job that bears the names. -/
def jobOf (names : ∀ f, Names f) : ClusterJob where
  job_state := (names .states).1
  user_name := (names .users).1.headD []
  account := (names .accounts).1.headD []
  qos := (names .qos).1.headD []
  partition := (names .partitions).1.headD []

theorem names_jobOf (names : ∀ f, Names f) (f : Filter) : (jobOf names).names f = (names f).1 := by
  have hsingle : f ≠ .states → [(names f).1.headD []] = (names f).1 := fun hne => by
    obtain ⟨name, hname⟩ := (names f).2.2 hne
    rw [hname]
    rfl
  cases f with
  | states => rfl
  | _ => exact hsingle (by decide)

def ClusterJob.toValue (job : ClusterJob) : Value F :=
  .dict [("job_state", .list (job.job_state.map .str)), ("user_name", .str job.user_name),
    ("account", .str job.account), ("qos", .str job.qos), ("partition", .str job.partition)]

omit [Python F] in
theorem readJob_toValue (job : ClusterJob) : readJob (job.toValue : Value F) = some job := by
  change ((job.job_state.map .str).mapM text?).map _ = _
  rw [mapM_text]
  rfl

/-- Agreement on lists is agreement on the names of one job. -/
theorem agrees_iff_names {client : Client F} {jsLower : Str → Str} {user : User} {scope : Str}
    {filters : JobsViewFilters}
    (hcommas : ∀ f, ∀ value ∈ filters.values f, ',' ∉ value) (hcache : client.cacheEnabled = true)
    (hscope : scope ≠ "self".toList) : Agrees client jsLower user scope filters ↔ ∀ names : ∀ f, Names f,
      (∀ f, Keeps jsLower ((filters.values f).map jsLower) (names f).1) ↔
        ∀ f, Keeps client.lower ((sent (filters.values f)).map client.lower) (names f).1 := by
  have hshows : ∀ {v : Value F} {job : ClusterJob}, readJob v = some job → (shows jsLower filters v = true ↔
      ∀ f, Keeps jsLower ((filters.values f).map jsLower) (job.names f)) := fun {v job} hread => by
    rw [shows, hread, Option.any_some, matchesFilters_iff]
  have hselects : ∀ {v : Value F} {job : ClusterJob}, readJob v = some job → (selects client filters v = true ↔
      ∀ f, Keeps client.lower ((sent (filters.values f)).map client.lower) (job.names f)) := fun {v job} hread => by
    rw [selects, hread, Option.any_some, decide_eq_true_iff]
    exact forall_congr' fun f => by rw [eq_true f.mem_all, true_imp_iff]
  constructor
  · intro hagrees names
    have hread : readJob ((jobOf names).toValue : Value F) = some (jobOf names) := readJob_toValue _
    have hlisted : ∀ v ∈ [((jobOf names).toValue : Value F)], Listed v := fun v hv => by
      rw [List.mem_singleton.1 hv]
      refine ⟨_, hread, fun f name hname => (names f).2.1 name ?_⟩
      rwa [names_jobOf] at hname
    have hall : client.jobs ⟨fun _ => .ok [], some [(jobOf names).toValue], none⟩ none =
        .ok [(jobOf names).toValue] := by
      rw [Client.jobs, Client.cached, hcache]
      rfl
    obtain ⟨selected, hselected, hsame, -⟩ := hagrees _ _ hall hlisted
    rw [listing_eq hcommas hcache hscope hall fun v hv =>
      Option.isSome_iff_exists.2 ((hlisted v hv).imp fun _ h => h.1)] at hselected
    cases hselected
    have hmem : ((jobOf names).toValue : Value F) ∈ [(jobOf names).toValue].filter (selects client filters) ↔
        ((jobOf names).toValue : Value F) ∈ [(jobOf names).toValue].filter (shows jsLower filters) := by rw [hsame]
    simp only [List.mem_filter, List.mem_singleton, true_and, hselects hread, hshows hread, names_jobOf] at hmem
    exact hmem.symm
  · intro hnames cluster jobs hall hlisted
    have hsame : jobs.filter (selects client filters) = jobs.filter (shows jsLower filters) := by
      refine List.filter_congr fun v hv => ?_
      obtain ⟨job, hread, hjob⟩ := hlisted v hv
      have hsingle : ∀ f : Filter, f ≠ .states → ∃ name, job.names f = [name] := fun f hf => by
        cases f with
        | states => exact absurd rfl hf
        | _ => exact ⟨_, rfl⟩
      rw [Bool.eq_iff_iff, hselects hread, hshows hread]
      exact (hnames fun f => ⟨job.names f, hjob f, hsingle f⟩).symm
    have hlisting := @listing_eq F _ client cluster user scope filters jobs hcommas hcache hscope hall fun v hv =>
      Option.isSome_iff_exists.2 ((hlisted v hv).imp fun _ h => h.1)
    refine ⟨_, hlisting, hsame, ?_⟩
    rw [hsame, List.filter_filter]
    exact List.filter_congr fun v _ => Bool.and_self _

/-! ## When they agree -/

theorem filterValues_noComma (param : Option Str) : ∀ value ∈ filterValues param, ',' ∉ value := by
  intro value hvalue
  cases param with
  | none => cases hvalue
  | some text =>
    rw [filterValues] at hvalue
    split at hvalue
    · cases hvalue
    · exact not_mem_of_mem_splitOn hvalue

theorem fromURL_noComma (query : Filter → Option Str) (f : Filter) :
    ∀ value ∈ (fromURL query).values f, ',' ∉ value := by
  cases f <;> exact filterValues_noComma _

/-- **Page and agent select the same jobs** exactly when trimming changes no filter, or both select nothing. -/
theorem filters_agree_iff {client : Client F} {jsLower : Str → Str} {user : User} {scope : Str}
    (query : Filter → Option Str)
    (hlower : AsciiLower client.lower) (hjs : AsciiLower jsLower) (hcache : client.cacheEnabled = true)
    (hscope : scope ≠ "self".toList) : Agrees client jsLower user scope (fromURL query) ↔
      (∀ f, SameNames client jsLower ((fromURL query).values f)) ∨
        (∃ f, NoName (((fromURL query).values f).map jsLower)) ∧
          ∃ f, NoName ((sent ((fromURL query).values f)).map client.lower) := by
  rw [agrees_iff_names (fromURL_noComma query) hcache hscope]
  refine (Facets.forall_iff_forall (p := fun f (names : Names f) =>
    Keeps jsLower (((fromURL query).values f).map jsLower) names.1)
    (q := fun f names => Keeps client.lower ((sent ((fromURL query).values f)).map client.lower) names.1)).trans ?_
  refine or_congr (forall_congr' fun f => (keeps_same_iff hjs hlower f).trans ?_)
    (and_congr (exists_congr fun f => keeps_none_iff hjs f) (exists_congr fun f => keeps_none_iff hlower f))
  simp only [SameNames, ne_eq, List.map_eq_nil_iff]
  constructor
  · rintro (⟨hnil, -⟩ | ⟨-, hboth⟩)
    · exact .inl hnil
    · exact .inr hboth
  · intro h
    by_cases hnil : (fromURL query).values f = []
    · exact .inl ⟨hnil, by rw [hnil]; rfl⟩
    · exact .inr ⟨hnil, h.resolve_left hnil⟩

/-! ## A blank before a name -/

/-- The query string with one filter of users. -/
def usersQuery (users : Str) : Filter → Option Str
  | .users => some users
  | _ => none

def bobsJob : ClusterJob := ⟨["RUNNING"], "bob", "physics", "normal", "main"⟩

theorem asciiLower_map : AsciiLower (List.map Char.toLower) := fun _ _ => rfl

theorem filters_agree_iff_alice : Agrees asciiClient (List.map Char.toLower) .anonymous "*"
    (fromURL (usersQuery "alice,bob")) := by
  refine (filters_agree_iff (usersQuery "alice,bob") asciiLower_map asciiLower_map rfl (by decide)).2 (.inl fun f => ?_)
  cases f with
  | users =>
    have hsame : sent ((fromURL (usersQuery "alice,bob")).values .users) =
        (fromURL (usersQuery "alice,bob")).values .users := by
      decide
    refine .inr ⟨by decide, fun name _ => ?_⟩
    rw [hsame]
    rfl
  | _ => exact .inl rfl

theorem untrimmed_filter_dropped : ¬ ∀ (client : Client ℚ) (jsLower : Str → Str) (user : User) (scope : Str)
    (query : Filter → Option Str), AsciiLower client.lower → AsciiLower jsLower → client.cacheEnabled = true →
      scope ≠ "self".toList → Agrees client jsLower user scope (fromURL query) := by
  intro hall
  have hagrees := hall asciiClient (List.map Char.toLower) .anonymous "*" (usersQuery "alice, bob")
    asciiLower_map asciiLower_map rfl (by decide)
  have hnames : ∀ f ∈ Filter.all, ∀ name ∈ ClusterJob.names bobsJob f, JobName name := by decide
  have hlisted : ∀ v ∈ [(bobsJob.toValue : Value ℚ)], Listed v := fun v hv => by
    rw [List.mem_singleton.1 hv]
    exact ⟨bobsJob, readJob_toValue bobsJob, fun f => hnames f f.mem_all⟩
  obtain ⟨selected, hselected, hshown, -⟩ := hagrees ⟨fun _ => .ok [], some [bobsJob.toValue], none⟩ _ rfl hlisted
  rw [listing_eq (fromURL_noComma _) rfl (by decide) rfl fun v hv => Option.isSome_iff_exists.2
    ((hlisted v hv).imp fun _ h => h.1), hshown] at hselected
  have hagent : ([bobsJob.toValue].filter (selects asciiClient (fromURL (usersQuery "alice, bob")))).length = 1 := by
    decide
  have hpage : ([bobsJob.toValue (F := ℚ)].filter
      (shows (List.map Char.toLower) (fromURL (usersQuery "alice, bob")))).length = 0 := by decide
  rw [Except.ok.inj hselected, hpage] at hagent
  cases hagent

end SlurmWeb.Frontend
