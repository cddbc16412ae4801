import SlurmWeb.Slurmrestd.Jobs

/-!
# Job listings of a user restricted to their own jobs

The view and the assistant's interface select by node or by the cached client's user filter, and then
keep the jobs whose owner is the user. The second filter decides: the first two look at one job at a
time and keep every job of the user that they should.

* `runsOn_ok`, `own_filter` — what the first filters do on well-formed jobs, and on the user's own.
* `listed_own` — the client's answer, cut down to the user's jobs.
* `self_listing` — both listings are the user's jobs, whatever the others' are.
-/

namespace SlurmWeb.Slurmrestd

open Strings Py Assistant

variable {F : Type} [Python F]

/-- The user's rules allow `jobs:view` with scope `self` and no other. -/
structure SelfOnly (app : App F) (user : User) : Prop where
  all : app.policy.allowedUserPermission user "jobs" "view" "*" = .ok false
  self : app.policy.allowedUserPermission user "jobs" "view" "self" = .ok true

/-- A job as slurmrestd lists it, with its owner as `user_name`. -/
inductive WellFormed : Value F → Prop
  | mk (job : Arguments F) (states : List (Value F)) (nodes owner : Str) :
      Value.lookup job "job_state" = some (.list states) → Value.lookup job "nodes" = some (.str nodes) →
      Value.lookup job "user_name" = some (.str owner) → jobOwner (.dict job) = .ok (some (.str owner)) →
      WellFormed (.dict job)

/-- Every membership test returns. -/
def Client.NodeSetCorrect (client : Client F) : Prop := ∀ nodes node, (client.inNodeSet (.str nodes) node).Returns

/-- The user owns the job. -/
def owns (login : Str) (job : Value F) : Bool :=
  match jobOwner job with
  | .ok owner => ownedBy owner (some login)
  | .error _ => false

def ownJobs (login : Str) (jobs : List (Value F)) : List (Value F) := jobs.filter (owns login)

/-- The jobs to show: all those given, or those on a node. -/
def Shown (client : Client F) (node : Option Str) (own shown : List (Value F)) : Prop :=
  match node with
  | none => shown = own
  | some node => client.selectOnNode node own = .ok shown

omit [Python F] in
theorem requests_self {app : App F} {login : Str} {groups : List Str}
    (hself : SelfOnly app (.authenticated login groups)) (hlogin : login ≠ []) :
    permissionScope app (.authenticated login groups) "jobs" "view" = .ok (some "self".toList) ∧
      permissionRequired app (.authenticated login groups) [("jobs", "view", "*"),
        ("jobs", "view", "self")] = .ok () := by
  constructor
  · rw [permissionScope, hself.all]
    simp only [Except.ok_bind, Bool.false_eq_true, if_false]
    rw [hself.self]
    simp [User.login, hlogin]
  · rw [permissionRequired, if_neg (by simp)]
    simp only [anyAllowed]
    rw [hself.all]
    simp only [Except.ok_bind, Bool.false_eq_true, if_false]
    rw [hself.self]
    rfl

/-! ## The owner filter -/

theorem filterJobsForOwner_eq {login : Str} : ∀ {jobs : List (Value F)}, (∀ job ∈ jobs, WellFormed job) →
    filterJobsForOwner (some login) jobs = .ok (ownJobs login jobs)
  | [], _ => rfl
  | job :: jobs, h => by
    have ih : filterJobsForOwner (some login) jobs = .ok (ownJobs login jobs) :=
      filterJobsForOwner_eq fun job hjob => h job (List.mem_cons_of_mem _ hjob)
    obtain ⟨job, states, nodes, owner, -, -, -, howner⟩ := h job List.mem_cons_self
    have hown : owns login (.dict job) = ownedBy (some (.str owner : Value F)) (some login) := by rw [owns, howner]
    have hcons : ownJobs login (.dict job :: jobs) =
        if owns login (.dict job) then .dict job :: ownJobs login jobs else ownJobs login jobs := List.filter_cons
    rw [filterJobsForOwner, howner, Except.ok_bind, ih, Except.ok_bind, hcons, hown]
    rfl

/-! ## The filters before it -/

omit [Python F] in
theorem terminated_returns {job : Arguments F} {states : List (Value F)}
    (h : Value.lookup job "job_state" = some (.list states)) : (terminated job).Returns := by
  have hstate : jobState job = .ok (.list states) := by rw [jobState, h]; rfl
  rw [terminated, hstate, Except.ok_bind, contains, Except.pure_eq_ok, Except.ok_bind]
  split
  · exact ⟨_, rfl⟩
  · rw [contains, Except.pure_eq_ok, Except.ok_bind]
    split <;> exact ⟨_, rfl⟩

/-- Whether a job runs on a node is decided job by job. -/
theorem runsOn_ok {client : Client F} (hnodes : client.NodeSetCorrect) (node : Str) {job : Value F}
    (h : WellFormed job) : (client.runsOn node job).Returns := by
  obtain ⟨job, states, nodes, owner, hstates, hjobNodes, -, -⟩ := h
  have honNode : (client.onNode node job).Returns := by
    rw [Client.onNode, hjobNodes]
    dsimp only
    split
    · exact ⟨false, rfl⟩
    · exact hnodes nodes node
  obtain ⟨b, hb⟩ := honNode
  rw [Client.runsOn, hb, Except.ok_bind]
  cases b with
  | false => exact ⟨false, rfl⟩
  | true =>
    obtain ⟨t, ht⟩ := terminated_returns hstates
    exact ⟨!t, by rw [ht]; rfl⟩

/-- The job's `user_name` is the login up to case. -/
def hasUserName (client : Client F) (login : Str) : Value F → Bool
  | .dict items => decide (client.lowerField items "user_name" = client.lower login)
  | _ => false

/-- The query of a user: every job whose `user_name` is the login up to case. -/
theorem filter_login (client : Client F) {login : Str} (h : PlainName login) {jobs : List (Value F)}
    (hjobs : ∀ job ∈ jobs, WellFormed job) : ∃ p : Value F → Bool,
      client.filterCachedJobs jobs [("user", .str login)] = .ok (jobs.filter p) ∧
        ∀ job ∈ jobs, owns login job = true → p job = true := by
  refine ⟨hasUserName client login, ?_, ?_⟩
  · rw [Client.filterCachedJobs]
    refine Except.filterE_eq_filter fun job hjob => ?_
    have htruthy : (Value.str login : Value F).truthy = true := by simpa [Value.truthy] using h.nonempty
    obtain ⟨job, -, -, -, -, -, -, -⟩ := hjobs job hjob
    dsimp only
    rw [show Value.get [("user".toList, (.str login : Value F))] "user" = .str login from rfl, Value.or, if_pos htruthy,
      split_name client h]
    have hrest : client.matches_ [client.lower login] [] [] [] [] job =
        .ok (decide (client.lowerField job "user_name" = client.lower login)) := by
      unfold Client.matches_
      generalize client.lowerField job "user_name" = name
      by_cases hname : name = client.lower login
      · simp [hname]
      · simp [hname]
    exact hrest
  · intro job hjob hown
    obtain ⟨job, states, nodes, owner, -, -, hname, howner⟩ := hjobs job hjob
    have hlogin : owner = login := by simpa [owns, howner, ownedBy] using hown
    rw [hasUserName, Client.lowerField, Value.getOr, hname, hlogin]
    exact decide_eq_true rfl

/-! ## The listings -/

/-- The client's answer to a listing of one's own jobs. -/
def answer (client : Client F) (cluster : Cluster F) (login : Str) : Option Str → Except BackendError (List (Value F))
  | none => client.jobs cluster (some [("user", .str login)])
  | some node => client.jobsByNode cluster node

theorem own_filter {login : Str} {p : Value F → Bool} {jobs : List (Value F)} :
    ownJobs login (jobs.filter p) = (ownJobs login jobs).filter p := by
  rw [ownJobs, ownJobs, List.filter_filter, List.filter_filter]
  exact List.filter_congr fun job _ => Bool.and_comm _ _

/-- The client's answer, cut down to the user's jobs: those to show. -/
theorem listed_own {client : Client F} (hcache : client.cacheEnabled = true) (hnodes : client.NodeSetCorrect)
    {cluster : Cluster F} {login : Str} (hlogin : PlainName login) {jobs : List (Value F)}
    (hjobs : client.jobs cluster none = .ok jobs) (hwf : ∀ job ∈ jobs, WellFormed job) (node : Option Str) :
    ∃ listed shown, answer client cluster login node = .ok listed ∧ (∀ job ∈ listed, WellFormed job) ∧
      ownJobs login listed = shown ∧ Shown client node (ownJobs login jobs) shown := by
  cases node with
  | none =>
    obtain ⟨p, hp, hown⟩ := filter_login client hlogin hwf
    refine ⟨jobs.filter p, _, ?_, fun job hjob => hwf job (List.mem_of_mem_filter hjob), rfl, ?_⟩
    · have hcached : client.cached cluster.cachedJobs (client.filteredJobs cluster none) = .ok jobs := hjobs
      rw [answer, Client.jobs, if_pos ⟨by simp, hcache⟩, hcached, Except.ok_bind, hp]
      rfl
    · rw [Shown, own_filter]
      refine List.filter_eq_self.2 fun job hjob => ?_
      obtain ⟨hjob, howner⟩ := List.mem_filter.1 hjob
      exact hown job hjob howner
  | some node =>
    have hreturns : ∃ p : Value F → Bool, ∀ job ∈ jobs, client.runsOn node job = .ok (p job) := by
      refine ⟨fun job => (client.runsOn node job).toOption.getD false, fun job hjob => ?_⟩
      obtain ⟨b, hb⟩ := runsOn_ok hnodes node (hwf job hjob)
      dsimp only
      rw [hb]
      rfl
    obtain ⟨p, hp⟩ := hreturns
    refine ⟨jobs.filter p, _, ?_, fun job hjob => hwf job (List.mem_of_mem_filter hjob), rfl, ?_⟩
    · rw [answer, Client.jobsByNode, hjobs, Except.ok_bind, Client.selectOnNode, Except.filterE_eq_filter hp]
      rfl
    · rw [Shown, own_filter, Client.selectOnNode]
      exact Except.filterE_eq_filter fun job hjob => hp job (List.mem_of_mem_filter hjob)

/-- The node an argument dictionary asks for. -/
def nodeOfArguments (arguments : Arguments F) : Option Str :=
  if (argument arguments "node").truthy then some (argument arguments "node").toStr else none

section Listings

variable {app : App F} {client : Client F} {cluster : Cluster F} {login : Str} {groups : List Str}
    {jobs : List (Value F)}

/-- The view of the jobs. -/
theorem httpJobs_eq (hlogin : PlainName login) (hself : SelfOnly app (.authenticated login groups))
    (hcache : client.cacheEnabled = true) (hnodes : client.NodeSetCorrect) (hjobs : client.jobs cluster none = .ok jobs)
    (hwf : ∀ job ∈ jobs, WellFormed job) (args : List (Str × Str)) :
    ∃ shown, Shown client (nodeOfQuery args) (ownJobs login jobs) shown ∧
      httpJobs app client cluster (.authenticated login groups) args = .ok (.list shown) := by
  obtain ⟨listed, shown, hlisted, hwf', hown, hshown⟩ := listed_own hcache hnodes hlogin hjobs hwf (nodeOfQuery args)
  obtain ⟨hscope, hrequired⟩ := requests_self hself hlogin.nonempty
  refine ⟨shown, hshown, ?_⟩
  have hfilter : filterJobsForOwner (some login) listed = .ok shown := hown ▸ filterJobsForOwner_eq hwf'
  have hlisting : listing client cluster (.authenticated login groups) "self" args = .ok listed := by
    rw [← hlisted, listing]
    cases nodeOfQuery args <;> rfl
  unfold httpJobs
  rw [hrequired, Except.ok_bind, hscope]
  simp only [ruleRaise, Except.mapError, Except.ok_bind, User.login]
  rw [hlisting]
  simp only [backendRaise, pyRaise, Except.mapError, Except.ok_bind, if_true]
  rw [hfilter]
  rfl

/-- The assistant's interface `jobs`. -/
theorem jobs_eq (hlogin : PlainName login) (hself : SelfOnly app (.authenticated login groups))
    (hcache : client.cacheEnabled = true) (hnodes : client.NodeSetCorrect) (hjobs : client.jobs cluster none = .ok jobs)
    (hwf : ∀ job ∈ jobs, WellFormed job) (arguments : Arguments F) :
    ∃ shown, Shown client (nodeOfArguments arguments) (ownJobs login jobs) shown ∧
      Assistant.jobs (client.appOver cluster app) (.authenticated login groups) arguments =
        (do return result "jobs" (← limitItems (.list shown) (argument arguments "limit")) 200) := by
  obtain ⟨listed, shown, hlisted, hwf', hown, hshown⟩ :=
    listed_own hcache hnodes hlogin hjobs hwf (nodeOfArguments arguments)
  obtain ⟨hscope, -⟩ := requests_self hself hlogin.nonempty
  refine ⟨shown, hshown, ?_⟩
  have hfilter : filterJobs (some login) (.list listed) = .ok (.list shown) := by
    rw [filterJobs, filterJobsForOwner_eq hwf', hown]
    rfl
  have hscope' : requirePermissionScope (client.appOver cluster app) (.authenticated login groups) "jobs" "view" =
      .ok "self".toList := by
    have hsame : permissionScope (client.appOver cluster app) (.authenticated login groups) "jobs" "view" =
        permissionScope app (.authenticated login groups) "jobs" "view" := rfl
    rw [requirePermissionScope, hsame, hscope]
    rfl
  have hread : (client.appOver cluster app).read (
      if (argument arguments "node").truthy then .jobsByNode (argument arguments "node").toStr
      else if "self".toList = "self".toList then .jobs (some login)
      else .jobs none) = .ok (.list listed) := by
    rw [nodeOfArguments] at hlisted
    by_cases htruthy : (argument arguments "node").truthy = true
    · rw [if_pos htruthy] at hlisted
      rw [if_pos htruthy]
      have hnode : client.jobsByNode cluster (argument arguments "node").toStr = .ok listed := hlisted
      show Value.list <$> client.jobsByNode cluster _ = _
      rw [hnode]
      rfl
    · rw [if_neg htruthy] at hlisted
      rw [if_neg htruthy, if_pos rfl]
      have hquery : client.jobs cluster (some [("user", .str login)]) = .ok listed := hlisted
      show Value.list <$> client.jobs cluster _ = _
      rw [hquery]
      rfl
  unfold Assistant.jobs
  rw [hscope', Except.ok_bind]
  dsimp only [User.login]
  rw [hread]
  simp only [backendRaise, pyRaise, Except.mapError, Except.ok_bind, if_true]
  rw [hfilter]
  rfl

end Listings

omit [Python F] in
theorem Shown.unique {client : Client F} {node : Option Str} {own shown shown' : List (Value F)}
    (h : Shown client node own shown) (h' : Shown client node own shown') : shown = shown' := by
  cases node with
  | none => exact h.trans h'.symm
  | some node => exact Except.ok.inj (h.symm.trans h')

/-- **A listing shows the user's own jobs and depends on no others.** -/
theorem self_listing {app : App F} {client : Client F} {login : Str} {groups : List Str} (hlogin : PlainName login)
    (hself : SelfOnly app (.authenticated login groups)) (hcache : client.cacheEnabled = true)
    (hnodes : client.NodeSetCorrect) {cluster cluster' : Cluster F} {jobs jobs' : List (Value F)}
    (hjobs : client.jobs cluster none = .ok jobs) (hjobs' : client.jobs cluster' none = .ok jobs')
    (hwf : ∀ job ∈ jobs, WellFormed job) (hwf' : ∀ job ∈ jobs', WellFormed job)
    (hsame : ownJobs login jobs = ownJobs login jobs') (args : List (Str × Str)) (arguments : Arguments F) :
    httpJobs app client cluster (.authenticated login groups) args =
        httpJobs app client cluster' (.authenticated login groups) args ∧
      Assistant.jobs (client.appOver cluster app) (.authenticated login groups) arguments =
        Assistant.jobs (client.appOver cluster' app) (.authenticated login groups) arguments ∧
      (∃ shown, Shown client (nodeOfQuery args) (ownJobs login jobs) shown ∧
        httpJobs app client cluster (.authenticated login groups) args = .ok (.list shown)) ∧
      ∃ shown, Shown client (nodeOfArguments arguments) (ownJobs login jobs) shown ∧
        Assistant.jobs (client.appOver cluster app) (.authenticated login groups) arguments =
          (do return result "jobs" (← limitItems (.list shown) (argument arguments "limit")) 200) := by
  obtain ⟨shown, hshown, hview⟩ := httpJobs_eq hlogin hself hcache hnodes hjobs hwf args
  obtain ⟨shown', hshown', hview'⟩ := httpJobs_eq hlogin hself hcache hnodes hjobs' hwf' args
  obtain ⟨listed, hlisted, hinterface⟩ := jobs_eq hlogin hself hcache hnodes hjobs hwf arguments
  obtain ⟨listed', hlisted', hinterface'⟩ := jobs_eq hlogin hself hcache hnodes hjobs' hwf' arguments
  have hview_same : shown' = shown := (hsame ▸ hshown').unique hshown
  have hinterface_same : listed' = listed := (hsame ▸ hlisted').unique hlisted
  refine ⟨?_, ?_, ⟨shown, hshown, hview⟩, ⟨listed, hlisted, hinterface⟩⟩
  · rw [hview, hview', hview_same]
  · rw [hinterface, hinterface', hinterface_same]


/-! ## Two users -/

def ownJobsRole : Role := ⟨"own", none, [], NormalRules.toValid ⟨["jobs:view:self"], by decide⟩⟩

/-- A policy of one custom role, over one's own jobs. -/
def selfPolicy : AccessControlPolicyManager where
  filePolicy := ⟨fun _ => ([], []), fun _ => false, []⟩
  accessControlEnabled := true
  accessControlStore := some ⟨defaultLegacyMap, fun _ => some [ownJobsRole]⟩
  legacyPermissionMap := defaultLegacyMap

def selfApp : App ℚ where
  policy := selfPolicy
  discover := .ok "0.0.42"
  supportsWriteOperations := true
  apiVersion := some "0.0.42"
  job _ := .ok (.dict [])
  read _ := .ok (.dict [])
  write _ := .ok (.dict [])
  jobsStore := false
  nodeMetricsDb := false
  userMetricsEnabled := false
  userMetricsStore := false
  fromIso _ := none

/-- A running job. -/
def runningJob (owner nodes : Str) : Arguments ℚ :=
  [("job_state", .list [.str "RUNNING"]), ("nodes", .str nodes), ("user_name", .str owner)]

theorem runningJob_wellFormed (owner nodes : Str) (h : owner ≠ []) : WellFormed (.dict (runningJob owner nodes)) := by
  refine .mk _ [.str "RUNNING"] nodes owner rfl rfl rfl ?_
  have hget : argument (runningJob owner nodes) "user_name" = .str owner := rfl
  have htruthy : (Value.str owner : Value ℚ).truthy = true := by simpa [Value.truthy] using h
  show Except.ok (firstTruthy (runningJob owner nodes) ["user_name", "user"]) = _
  rw [firstTruthy, hget, if_pos htruthy]

/-- A cluster with a cold cache. -/
def clusterOf (jobs : List (Value ℚ)) : Cluster ℚ := ⟨fun _ => .ok jobs, none, none⟩

/-- Bob's job makes no difference to Alice. -/
theorem self_listing_alice :
    httpJobs selfApp asciiClient (clusterOf [.dict (runningJob "alice" "cn1"), .dict (runningJob "bob" "cn1")])
        (.authenticated "alice" []) [("node", "cn1")] =
      httpJobs selfApp asciiClient (clusterOf [.dict (runningJob "alice" "cn1")]) (.authenticated "alice" [])
        [("node", "cn1")] :=
  (@self_listing ℚ _ selfApp asciiClient "alice" [] ⟨by decide, by decide, by decide⟩
    ⟨by decide, by decide⟩ rfl (fun _ _ => ⟨_, rfl⟩) (clusterOf _) (clusterOf _) _ _ rfl rfl
    (by simp [runningJob_wellFormed]) (by simp [runningJob_wellFormed]) (by rfl) _ []).1

end SlurmWeb.Slurmrestd
