import SlurmWeb.Slurmrestd.Jobs
import SlurmWeb.Lib.Lists

/-!
# The jobs of a partition, counted twice

The dashboard counts the jobs that the cached client's partition filter keeps; the metrics count the
jobs whose comma-separated partitions contain the name. The first compares the whole field, in lower
case.

| here | there |
| --- | --- |
| `partitionValues` | `_partition_values` (slurmweb/slurmrestd/__init__.py:604) |
| `jobsStates` | `jobs_states` (:623) |
| `collectStats` | `_collect_stats` (slurmweb/views/agent.py:1050), the node figures as a parameter |

* `countJobs_eq`, `countStates_eq` — the two figures as counts over the job list.
* `agree_iff` — they agree exactly when the jobs only one of them counts balance.
-/

namespace SlurmWeb.Slurmrestd

open Strings Py Assistant

variable {F : Type} [Python F]

/-- `{part.strip() for part in parts if part.strip()}` -/
def nonBlank (parts : List Str) : List Str := (parts.map strip).filter (· ≠ [])

/-- `_partition_values` (:604) -/
def partitionValues : Value F → List Str
  | .none => []
  | .str value => nonBlank (value.splitOn ',')
  | .list value => nonBlank (value.map Value.toStr)
  | value => nonBlank [value.toStr]

/-- The keys of the counters of `jobs_states` (:623) and the states they count. -/
def baseStates : List (Str × Str) :=
  [("running", "RUNNING"), ("pending", "PENDING"), ("completing", "COMPLETING"), ("completed", "COMPLETED"),
    ("cancelled", "CANCELLED"), ("suspended", "SUSPENDED"), ("preempted", "PREEMPTED"), ("failed", "FAILED"),
    ("timeout", "TIMEOUT"), ("node_fail", "NODE_FAIL"), ("boot_fail", "BOOT_FAIL"), ("deadline", "DEADLINE"),
    ("out_of_memory", "OUT_OF_MEMORY"), ("unknown", "UNKNOWN")]

/-- The loop over the states (:651): the first that the job is in. -/
def firstState (jobState : Value F) : List (Str × Str) → Except Py.Error Str
  | [] => return "unknown"
  | (state, upper) :: states => do if ← contains jobState upper then return state else firstState jobState states

/-- `jobs[state] += 1` -/
def increment (state : Str) (counts : List (Str × Nat)) : List (Str × Nat) :=
  counts.map fun count => if count.1 = state then (count.1, count.2 + 1) else count

/-- The loop of `jobs_states` (:645). -/
def countStates (partition : Option Str) : List (Value F) → List (Str × Nat) × Nat →
    Except Py.Error (List (Str × Nat) × Nat)
  | [], counts => return counts
  | .dict job :: jobs, counts => do
    if partition.any fun name => name ∉ partitionValues (Value.get job "partition") then
      countStates partition jobs counts
    else do
      let state ← firstState (← jobState job) baseStates
      countStates partition jobs (increment state counts.1, counts.2 + 1)
  | _ :: _, _ => .error .attributeError

/-- `jobs_states` (:623) -/
def jobsStates (client : Client F) (cluster : Cluster F) (partition : Option Str) :
    Except BackendError (List (Str × Nat) × Nat) := do
  let jobs ← client.jobsUnfiltered cluster
  pythonError (countStates partition jobs (baseStates.map fun state => (state.1, 0), 0))

structure Stats (F : Type) where
  resources : Value F
  running : Nat
  total : Nat

/-- The loop over the jobs of `_collect_stats` (:1059): running and total. -/
def countJobs : List (Value F) → Nat × Nat → Except Py.Error (Nat × Nat)
  | [], counts => return counts
  | .dict job :: jobs, counts => do
    let running ← contains (← jobState job) "RUNNING"
    countJobs jobs (if running then counts.1 + 1 else counts.1, counts.2 + 1)
  | _ :: _, _ => .error .typeError

/-- `_collect_stats` (:1050) -/
def collectStats (client : Client F) (cluster : Cluster F) (resources : Except BackendError (Value F))
    (query : Option (Arguments F)) : Except BackendError (Stats F) := do
  let jobs ← client.jobs cluster query
  let (running, total) ← pythonError (countJobs jobs (0, 0))
  return ⟨← resources, running, total⟩

/-! ## Jobs as the counts see them -/

/-- A job as slurmrestd lists it. -/
inductive LiveJob : Value F → Prop
  | mk (job : Arguments F) (states : List (Value F)) : Value.lookup job "job_state" = some (.list states) →
      LiveJob (.dict job)

/-- The same partition and the same states. -/
inductive SameJob : Value F → Value F → Prop
  | mk (job job' : Arguments F) : Value.lookup job "partition" = Value.lookup job' "partition" →
      Value.lookup job "job_state" = Value.lookup job' "job_state" → SameJob (.dict job) (.dict job')

def isRunning : Value F → Bool
  | .dict job =>
    match Value.lookup job "job_state" with
    | some (.list states) => states.any (·.isStr "RUNNING")
    | _ => false
  | _ => false

/-- The dashboard's test: the whole field, in lower case. -/
def onDashboard (client : Client F) (name : Str) : Value F → Bool
  | .dict job => decide (client.lowerField job "partition" = client.lower name)
  | _ => false

/-- The metrics' test: one of the partitions. -/
def inMetrics (name : Str) : Value F → Bool
  | .dict job => decide (name ∈ partitionValues (Value.get job "partition"))
  | _ => false

/-- A counter of `jobs_states`. -/
def counterOf (counts : List (Str × Nat)) (state : Str) : Nat := ((counts.find? (·.1 == state)).map Prod.snd).getD 0

omit [Python F] in
theorem SameJob.running {a b : Value F} (h : SameJob a b) : isRunning a = isRunning b := by
  obtain ⟨job, job', -, hstates⟩ := h
  rw [isRunning, hstates, isRunning]

theorem SameJob.dashboard {client : Client F} {name : Str} {a b : Value F} (h : SameJob a b) :
    onDashboard client name a = onDashboard client name b := by
  obtain ⟨job, job', hpartition, -⟩ := h
  rw [onDashboard, Client.lowerField, Value.getOr, hpartition, onDashboard, Client.lowerField, Value.getOr]

omit [Python F] in
theorem SameJob.live {a b : Value F} (h : SameJob a b) (hlive : LiveJob b) : LiveJob a := by
  obtain ⟨job, job', -, hstates⟩ := h
  cases hlive with
  | mk _ states hlist => exact .mk job states (hstates.trans hlist)

omit [Python F] in
/-- A job's states can be read. -/
theorem LiveJob.running {job : Arguments F} (h : LiveJob (.dict job)) :
    ∃ states, jobState job = .ok (.list states) ∧ isRunning (.dict job) = states.any (·.isStr "RUNNING") := by
  cases h with
  | mk _ states hlist =>
    refine ⟨states, ?_, ?_⟩
    · rw [jobState, hlist]; rfl
    · rw [isRunning, hlist]

/-! ## The figures as counts -/

omit [Python F] in
theorem countJobs_eq : ∀ {jobs : List (Value F)} {running total : Nat}, (∀ job ∈ jobs, LiveJob job) →
    countJobs jobs (running, total) = .ok (running + jobs.countP isRunning, total + jobs.length)
  | [], _, _, _ => rfl
  | job :: jobs, running, total, h => by
    have hlive := h job List.mem_cons_self
    cases job with
    | dict job =>
      obtain ⟨states, hstates, hrunning⟩ := hlive.running
      rw [countJobs, hstates, Except.ok_bind, contains, Except.pure_eq_ok, Except.ok_bind, ← hrunning,
        countJobs_eq fun job hjob => h job (List.mem_cons_of_mem _ hjob), List.countP_cons, List.length_cons]
      dsimp only
      cases isRunning (Value.dict job) with
      | true => simp only [if_true]; congr 2 <;> omega
      | false => simp only [Bool.false_eq_true, if_false]; congr 2; omega
    | _ => cases hlive

/-- The jobs the cached client keeps for a partition. -/
theorem filter_partition (client : Client F) {name : Str} (hname : PlainName name) {jobs : List (Value F)}
    (hjobs : ∀ job ∈ jobs, LiveJob job) :
    client.filterCachedJobs jobs [("partition", .str name)] = .ok (jobs.filter (onDashboard client name)) := by
  rw [Client.filterCachedJobs]
  refine Except.filterE_eq_filter fun job hjob => ?_
  have htruthy : (Value.str name : Value F).truthy = true := by simpa [Value.truthy] using hname.nonempty
  obtain ⟨job, -, -⟩ := hjobs job hjob
  dsimp only
  have hvalue : (Value.get [("partition".toList, (.str name : Value F))] "partition").or
      (Value.get [("partition".toList, (.str name : Value F))] "partitions") = .str name := if_pos htruthy
  rw [hvalue, split_name client hname]
  have hrest : client.matches_ [] [] [] [] [client.lower name] job = .ok (onDashboard client name (.dict job)) := by
    have hdashboard : onDashboard client name (.dict job) =
        decide (client.lowerField job "partition" = client.lower name) := rfl
    unfold Client.matches_
    rw [hdashboard, if_neg fun h => h.1 rfl, if_neg fun h => h.1 rfl, if_neg fun h => h.1 rfl]
    by_cases hfield : client.lowerField job "partition" = client.lower name
    · rw [if_neg fun h => h.2 (List.mem_singleton.2 hfield), if_neg fun h => h rfl, decide_eq_true hfield]
      rfl
    · rw [if_pos ⟨List.cons_ne_nil _ _, fun h => hfield (List.mem_singleton.1 h)⟩, decide_eq_false hfield]
      rfl
  exact hrest

omit [Python F] in
theorem firstState_ok (states : List (Value F)) : ∀ table : List (Str × Str), ∃ state,
    firstState (.list states) table = .ok state
  | [] => ⟨_, rfl⟩
  | (state, upper) :: table => by
    obtain ⟨rest, hrest⟩ := firstState_ok states table
    rw [firstState, contains, Except.pure_eq_ok, Except.ok_bind]
    split
    · exact ⟨_, rfl⟩
    · exact ⟨rest, hrest⟩

theorem counterOf_cons (k : Str) (n : Nat) (counts : List (Str × Nat)) (key : Str) :
    counterOf ((k, n) :: counts) key = if k = key then n else counterOf counts key := by
  unfold counterOf
  rw [List.find?_cons]
  by_cases hk : k = key
  · simp [hk]
  · have hne : (k == key) = false := by simpa using hk
    simp [hne, hk]

theorem counterOf_increment (state : Str) {key : Str} : ∀ {counts : List (Str × Nat)}, key ∈ counts.map Prod.fst →
    counterOf (increment state counts) key = counterOf counts key + if state = key then 1 else 0
  | (k, n) :: counts, h => by
    have hcons : increment state ((k, n) :: counts) = (if k = state then (k, n + 1) else (k, n)) ::
        increment state counts := rfl
    by_cases hk : k = key
    · subst hk
      by_cases hs : k = state
      · rw [hcons, if_pos hs, counterOf_cons, if_pos rfl, counterOf_cons, if_pos rfl, if_pos hs.symm]
      · rw [hcons, if_neg hs, counterOf_cons, if_pos rfl, counterOf_cons, if_pos rfl, if_neg (Ne.symm hs)]
        rfl
    · have hmem : key ∈ counts.map Prod.fst := by
        rcases List.mem_cons.1 h with h | h
        · exact absurd h.symm hk
        · exact h
      have ih := counterOf_increment state hmem
      have hhead : counterOf (increment state ((k, n) :: counts)) key = counterOf (increment state counts) key := by
        rw [hcons]
        split
        · rw [counterOf_cons, if_neg hk]
        · rw [counterOf_cons, if_neg hk]
      rw [hhead, ih, counterOf_cons, if_neg hk]

theorem increment_keys (state : Str) (counts : List (Str × Nat)) :
    (increment state counts).map Prod.fst = counts.map Prod.fst := by
  rw [increment, List.map_map]
  refine List.map_congr_left fun count _ => ?_
  dsimp only [Function.comp_apply]
  split <;> rfl

omit [Python F] in
theorem firstState_mem {states : List (Value F)} {state : Str} : ∀ {table : List (Str × Str)},
    firstState (.list states) table = .ok state → state = "unknown".toList ∨ state ∈ table.map Prod.fst
  | [], h => .inl (Except.ok.inj h).symm
  | (name, upper) :: table, h => by
    rw [firstState, contains, Except.pure_eq_ok, Except.ok_bind] at h
    split at h
    · exact .inr (List.mem_cons.2 (.inl (Except.ok.inj h).symm))
    · exact (firstState_mem h).imp_right (List.mem_cons_of_mem _)

omit [Python F] in
/-- The first state is `running` when the job is in it. -/
theorem firstState_running {states : List (Value F)} {state : Str}
    (h : firstState (.list states) baseStates = .ok state) :
    state = "running".toList ↔ states.any (·.isStr "RUNNING") = true := by
  rw [baseStates, firstState, contains, Except.pure_eq_ok, Except.ok_bind] at h
  split at h
  next hrunning => exact ⟨fun _ => hrunning, fun _ => (Except.ok.inj h).symm⟩
  next hnot =>
    refine ⟨fun hstate => ?_, fun hrunning => absurd hrunning hnot⟩
    have hmem := firstState_mem h
    rw [hstate] at hmem
    exact absurd hmem (by decide)

/-- Total and running jobs of the metrics. -/
theorem countStates_eq (name : Str) : ∀ (jobs : List (Value F)) (counts : List (Str × Nat)) (total : Nat),
    (∀ job ∈ jobs, LiveJob job) → "running".toList ∈ counts.map Prod.fst →
      ∃ counts', countStates (some name) jobs (counts, total) = .ok (counts', total + jobs.countP (inMetrics name)) ∧
        counterOf counts' "running" =
          counterOf counts "running" + jobs.countP fun job => inMetrics name job && isRunning job
  | [], counts, _, _, _ => ⟨counts, rfl, rfl⟩
  | job :: jobs, counts, total, h, hkey => by
    have hrest : ∀ job ∈ jobs, LiveJob job := fun job hjob => h job (List.mem_cons_of_mem _ hjob)
    have hlive := h job List.mem_cons_self
    cases job with
    | dict job =>
      have hskip : ((some name).any fun name => decide (name ∉ partitionValues (Value.get job "partition"))) =
          !inMetrics name (.dict job) := decide_not
      rw [List.countP_cons, List.countP_cons, countStates, hskip]
      cases hin : inMetrics name (.dict job) with
      | true =>
        obtain ⟨states, hstates, hrunning⟩ := hlive.running
        obtain ⟨state, hstate⟩ := firstState_ok states baseStates
        obtain ⟨counts', hcount, hcounter⟩ := countStates_eq name jobs (increment state counts) (total + 1) hrest
          (by rwa [increment_keys])
        rw [counterOf_increment state hkey] at hcounter
        refine ⟨counts', ?_, ?_⟩
        · rw [if_neg (by decide), hstates, Except.ok_bind, hstate, Except.ok_bind, hcount, if_pos rfl]
          congr 2
          omega
        · rw [hcounter, Bool.true_and, hrunning]
          by_cases hr : states.any (·.isStr "RUNNING") = true
          · rw [if_pos ((firstState_running hstate).2 hr), if_pos hr]
            omega
          · rw [if_neg (mt (firstState_running hstate).1 hr), if_neg hr, Nat.add_zero, Nat.add_zero]
      | false =>
        obtain ⟨counts', hcount, hcounter⟩ := countStates_eq name jobs counts total hrest hkey
        exact ⟨counts', hcount, hcounter⟩
    | _ => cases hlive

/-! ## When the figures agree -/

/-- Both figures can be had, with the same total and running jobs. -/
def Agree (client : Client F) (cluster : Cluster F) (resources : Value F) (name : Str) : Prop :=
  ∃ stats counts total, collectStats client cluster (.ok resources) (some [("partition", .str name)]) = .ok stats ∧
    jobsStates client cluster (some name) = .ok (counts, total) ∧
    stats.total = total ∧ stats.running = counterOf counts "running"

/-- Jobs that only the dashboard counts: the name in another case. -/
def onlyDashboard (client : Client F) (name : Str) (job : Value F) : Bool :=
  onDashboard client name job && !inMetrics name job

/-- Jobs that only the metrics count: the name among others, or between blanks. -/
def onlyMetrics (client : Client F) (name : Str) (job : Value F) : Bool :=
  inMetrics name job && !onDashboard client name job

/-- As many jobs, and running jobs, are counted by the dashboard only as by the metrics only. -/
def Balanced (client : Client F) (name : Str) (jobs : List (Value F)) : Prop :=
  jobs.countP (onlyDashboard client name) = jobs.countP (onlyMetrics client name) ∧
    jobs.countP (fun job => onlyDashboard client name job && isRunning job) =
      jobs.countP fun job => onlyMetrics client name job && isRunning job

/-- **The dashboard and the metrics agree** on a partition exactly when what only one of them counts
balances. -/
theorem agree_iff {client : Client F} (hcache : client.cacheEnabled = true) {cluster : Cluster F} {name : Str}
    (hname : PlainName name) {listed jobs : List (Value F)} (hlisted : client.jobs cluster none = .ok listed)
    (hjobs : client.jobsUnfiltered cluster = .ok jobs) (hlive : ∀ job ∈ jobs, LiveJob job)
    (hsame : List.Forall₂ SameJob listed jobs) (resources : Value F) :
    Agree client cluster resources name ↔ Balanced client name jobs := by
  have hlive' : ∀ job ∈ listed, LiveJob job := by
    intro job hjob
    obtain ⟨job', hjob', h⟩ := hsame.exists_right job hjob
    exact h.live (hlive job' hjob')
  have hkept : ∀ job ∈ listed.filter (onDashboard client name), LiveJob job :=
    fun job hjob => hlive' job (List.mem_of_mem_filter hjob)
  -- the dashboard's figures
  have htotal : (listed.filter (onDashboard client name)).length = jobs.countP (onDashboard client name) := by
    rw [← List.countP_eq_length_filter]
    exact hsame.countP_eq fun a b h => h.dashboard
  have hrunning : (listed.filter (onDashboard client name)).countP isRunning =
      jobs.countP fun job => onDashboard client name job && isRunning job := by
    rw [List.countP_filter]
    exact hsame.countP_eq fun a b h => by rw [h.dashboard, h.running, Bool.and_comm]
  have hstats : collectStats client cluster (.ok resources) (some [("partition", .str name)]) =
      .ok ⟨resources, jobs.countP fun job => onDashboard client name job && isRunning job,
        jobs.countP (onDashboard client name)⟩ := by
    have hquery : client.jobs cluster (some [("partition", .str name)]) =
        .ok (listed.filter (onDashboard client name)) := by
      have hcached : client.cached cluster.cachedJobs (client.filteredJobs cluster none) = .ok listed := hlisted
      rw [Client.jobs, if_pos ⟨List.cons_ne_nil _ _, hcache⟩, hcached, Except.ok_bind,
        filter_partition client hname hlive']
      rfl
    rw [collectStats, hquery, Except.ok_bind, countJobs_eq hkept, htotal, hrunning, Nat.zero_add, Nat.zero_add]
    rfl
  -- the metrics'
  obtain ⟨counts, hcounts, hcounter⟩ := countStates_eq name jobs (baseStates.map fun state => (state.1, 0)) 0 hlive
    (by decide)
  have hzero : counterOf (baseStates.map fun state => (state.1, 0)) "running" = 0 := rfl
  rw [Nat.zero_add] at hcounts
  rw [hzero, Nat.zero_add] at hcounter
  have hmetrics : jobsStates client cluster (some name) = .ok (counts, jobs.countP (inMetrics name)) := by
    rw [jobsStates, hjobs, Except.ok_bind, hcounts]
    rfl
  have hagree : Agree client cluster resources name ↔
      jobs.countP (onDashboard client name) = jobs.countP (inMetrics name) ∧
        jobs.countP (fun job => onDashboard client name job && isRunning job) =
          jobs.countP fun job => inMetrics name job && isRunning job := by
    constructor
    · rintro ⟨stats, counts', total, hstats', hmetrics', hsameTotal, hsameRunning⟩
      cases hstats.symm.trans hstats'
      cases hmetrics.symm.trans hmetrics'
      exact ⟨hsameTotal, hsameRunning.trans hcounter⟩
    · rintro ⟨hsameTotal, hsameRunning⟩
      exact ⟨_, counts, _, hstats, hmetrics, hsameTotal, hsameRunning.trans hcounter.symm⟩
  have honly : ∀ p q r : Bool, ((p && r) && !(q && r)) = ((p && !q) && r) := by decide
  rw [hagree]
  refine and_congr (List.countP_eq_iff _ _ _) ?_
  rw [List.countP_eq_iff]
  simp only [honly]
  rfl

/-- In particular when every job names one partition, and no two partitions differ in case only. -/
theorem balanced_of_plain {client : Client F} {name : Str} {jobs : List (Value F)}
    (h : ∀ job ∈ jobs, ∃ items partition, job = .dict items ∧ Value.lookup items "partition" = some (.str partition) ∧
      PlainName partition ∧ (client.lower partition = client.lower name → partition = name)) :
    Balanced client name jobs := by
  have hsame : ∀ job ∈ jobs, onDashboard client name job = inMetrics name job := by
    intro job hjob
    obtain ⟨items, partition, rfl, hlookup, hplain, hcase⟩ := h job hjob
    have hvalues : partitionValues (Value.get items "partition") = [partition] := by
      rw [Value.get, Value.getOr, hlookup]
      show nonBlank (partition.splitOn ',') = _
      rw [List.splitOn_eq_singleton hplain.noComma, nonBlank, List.map_singleton, hplain.trimmed]
      exact List.filter_cons_of_pos (by simpa using hplain.nonempty)
    rw [onDashboard, inMetrics, hvalues, Client.lowerField, Value.getOr, hlookup]
    refine decide_eq_decide.2 ?_
    show client.lower partition = client.lower name ↔ _
    rw [List.mem_singleton]
    exact ⟨fun hlower => (hcase hlower).symm, fun hname => by rw [hname]⟩
  have hdashboard : ∀ job ∈ jobs, onlyDashboard client name job = false := by
    intro job hjob
    rw [onlyDashboard, hsame job hjob, Bool.and_not_self]
  have hmetrics : ∀ job ∈ jobs, onlyMetrics client name job = false := by
    intro job hjob
    rw [onlyMetrics, hsame job hjob, Bool.and_not_self]
  constructor
  · exact List.countP_congr fun job hjob => by rw [hdashboard job hjob, hmetrics job hjob]
  · exact List.countP_congr fun job hjob => by rw [hdashboard job hjob, hmetrics job hjob]

/-- A pending job of two partitions. -/
def sharedJob : Value ℚ := .dict [("job_state", .list [.str "PENDING"]), ("partition", .str "a,b")]

def sharedCluster : Cluster ℚ := ⟨fun _ => .ok [sharedJob], none, none⟩

theorem sharedJob_live : ∀ job ∈ [sharedJob], LiveJob job := by
  intro job hjob
  cases List.mem_singleton.1 hjob
  exact .mk _ [.str "PENDING"] rfl

theorem plainName_a : PlainName "a" := ⟨by decide, by decide, by decide⟩

theorem agree_iff_shared : Agree asciiClient sharedCluster .none "a" ↔ Balanced asciiClient "a" [sharedJob] :=
  agree_iff rfl plainName_a rfl rfl sharedJob_live (.cons (.mk _ _ rfl rfl) .nil) .none

/-- The metrics count a job of two partitions, the dashboard does not. -/
theorem shared_job_missed : ¬ ∀ (client : Client ℚ) (cluster : Cluster ℚ) (name : Str) (jobs : List (Value ℚ)),
    client.cacheEnabled = true → PlainName name → client.jobs cluster none = .ok jobs →
      client.jobsUnfiltered cluster = .ok jobs → (∀ job ∈ jobs, LiveJob job) → Agree client cluster .none name := by
  intro h
  obtain ⟨stats, counts, total, hstats, hcounts, htotal, -⟩ :=
    h asciiClient sharedCluster "a" [sharedJob] rfl plainName_a rfl rfl sharedJob_live
  have hdashboard : collectStats asciiClient sharedCluster (.ok .none) (some [("partition", .str "a")]) =
      .ok ⟨.none, 0, 0⟩ := by rfl
  have hmetrics : (jobsStates asciiClient sharedCluster (some "a")).toOption.map Prod.snd = some 1 := by rfl
  cases hdashboard.symm.trans hstats
  rw [hcounts] at hmetrics
  cases htotal.trans (Option.some.inj hmetrics)

end SlurmWeb.Slurmrestd
