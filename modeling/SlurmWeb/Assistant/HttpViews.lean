import SlurmWeb.Assistant.Interfaces

/-!
# The permission checks of the HTTP views (slurmweb/views/agent.py)

The view of each assistant interface, reduced to what decides whether the request is let through:
the requirements of its `permission_required` decorator, and the job it must own.

| here | there |
| --- | --- |
| `permissionRequired` | `permission_required` (:478) |
| `authorizeJobOwner` | `_authorize_job_owner` (:467) |
| `view` | the decorated views (:1021-1346, :1492-1525, :1882-1914, :1947-1965) |

* `authorizeJobOwner_ok_iff` — what the ownership check asks of user and job; the lookup it also
  makes for the scope `*` decides nothing.
-/

namespace SlurmWeb.Assistant

open Strings Py

variable {F : Type}

def abort403 {α : Type} : Except ExecError α := .error (.http 403 "Access not permitted")

/-- `permission_required` (:478) for a request with a bearer token. -/
def permissionRequired (app : App F) (user : User) (requirements : List (Str × Str × Str)) : Except ExecError Unit :=
  if user = .anonymous ∧ app.policy.accessControlAvailable then abort403
  else do if ← ruleRaise (anyAllowed app user requirements) then return () else abort403

/-- What a view asks of the user and of the target of the request. -/
structure View where
  requirements : List (Str × Str × Str)
  /-- The operation of a `_require_permission_scope("jobs", ..)` in the view. -/
  scopeOperation : Option Str
  /-- The operation of an `_authorize_job_owner` in the view. -/
  jobOperation : Option Str

/-- The part of a request's path a check looks at. -/
inductive Target
  | none
  | job (jobId : Int)
  | user (username : Str)

/-- The scope of `user/analysis` for a user name (:1886, :1918). -/
def analysisScope (user : User) (username : Str) : Str := if user.login = some username then "self" else "*"

def plainView (requirements : List (Str × Str × Str)) : View := ⟨requirements, none, none⟩

/-- A view over one's own jobs or all jobs. -/
def jobsView (operation : Str) (scopeOperation jobOperation : Option Str) : View :=
  ⟨[("jobs".toList, operation, "*".toList), ("jobs".toList, operation, "self".toList)], scopeOperation, jobOperation⟩

def userAnalysisView (user : User) : Target → View
  | .user username => plainView [("user/analysis", "view", analysisScope user username), ("jobs", "view", "*")]
  | _ => plainView []

def view (user : User) (target : Target) : Interface → View
  | .stats => plainView [("dashboard", "view", "*"), ("analysis", "view", "*")]
  | .analysisContext => plainView [("analysis", "view", "*")]
  | .jobs => jobsView "view" (some "view") none
  | .job => jobsView "view" none (some "view")
  | .jobsHistory => plainView [("jobs-history", "view", "*")]
  | .jobHistoryDetail => plainView [("jobs-history", "view", "*")]
  | .nodes => plainView [("resources", "view", "*")]
  | .node => plainView [("resources", "view", "*")]
  | .nodeMetrics => plainView [("resources", "view", "*")]
  | .nodeMetricsHistory => plainView [("resources", "view", "*")]
  | .partitions => plainView [("jobs/filter-partitions", "view", "*"), ("resources/filter-partitions", "view", "*")]
  | .qos => plainView [("qos", "view", "*"), ("jobs/filter-qos", "view", "*")]
  | .reservations => plainView [("reservations", "view", "*")]
  | .accounts => plainView [("accounts", "view", "*"), ("jobs/filter-accounts", "view", "*")]
  | .account => plainView [("accounts", "view", "*")]
  | .associations => plainView [("accounts", "view", "*"), ("user/profile", "view", "*")]
  | .users => plainView [("users-admin", "view", "*")]
  | .user => plainView [("users-admin", "view", "*")]
  | .userMetricsHistory => userAnalysisView user target
  | .userToolsAnalysis => userAnalysisView user target
  | .jobSubmit => jobsView "edit" none none
  | .jobUpdate => jobsView "edit" none (some "edit")
  | .jobCancel => jobsView "delete" none (some "delete")
  | .nodeUpdate => plainView [("resources", "edit", "*")]
  | .nodeDelete => plainView [("resources", "delete", "*")]
  | .reservationCreate => plainView [("reservations", "edit", "*")]
  | .reservationUpdate => plainView [("reservations", "edit", "*")]
  | .reservationDelete => plainView [("reservations", "delete", "*")]
  | .accountsUpdate => plainView [("accounts", "edit", "*")]
  | .accountDelete => plainView [("accounts", "delete", "*")]
  | .associationsUpdate => plainView [("accounts", "edit", "*")]
  | .associationsDelete => plainView [("accounts", "delete", "*")]
  | .usersUpdate => plainView [("users-admin", "edit", "*")]
  | .userDelete => plainView [("users-admin", "delete", "*")]
  | .qosUpdate => plainView [("qos", "edit", "*")]
  | .qosDelete => plainView [("qos", "delete", "*")]

theorem permissionScope_cases {app : App F} {user : User} {resource operation scope : Str}
    (h : permissionScope app user resource operation = .ok (some scope)) : scope = "*".toList ∨
      scope = "self".toList := by
  obtain ⟨b, -, h⟩ := Except.bind_eq_ok.1 h
  cases b with
  | true => cases h; exact .inl rfl
  | false =>
    obtain ⟨c, -, h⟩ := Except.bind_eq_ok.1 h
    cases c with
    | true =>
      simp only [if_true, Except.pure_eq_ok, Except.ok.injEq] at h
      split at h
      · cases h; exact .inr rfl
      · cases h
    | false => cases h

variable [Python F]

/-- `_authorize_job_owner` (:467) -/
def authorizeJobOwner (app : App F) (user : User) (jobId : Int) (operation : Str) : Except ExecError (Value F) := do
  match ← ruleRaise (permissionScope app user "jobs" operation) with
  | none => abort403
  | some scope => do
    let jobData ← backendRaise (app.job jobId)
    if scope = "*".toList then return jobData
    else do
      let owner ← pyRaise (jobOwner jobData)
      if ownedBy owner user.login then return jobData else abort403

/-- The target an interface's arguments name. -/
def Interface.target (user : User) (arguments : Arguments F) : Interface → Except ExecError Target
  | .job | .jobUpdate | .jobCancel => do return .job (← intArgument arguments "job_id")
  | .userMetricsHistory => do return .user (← stringArgument arguments "username")
  | .userToolsAnalysis =>
    match toolsUsername user arguments with
    | none => .error (.interface 400 "username is required")
    | some username => return .user username
  | _ => return .none

/-! ## Acceptance -/

/-- The ownership check lets the user at the job. -/
def OwnerAccepted (app : App F) (user : User) (jobId : Int) (operation : Str) : Prop :=
  permissionScope app user "jobs" operation = .ok (some "*".toList) ∨
    permissionScope app user "jobs" operation = .ok (some "self".toList) ∧ ∃ jobData owner,
      app.job jobId = .ok jobData ∧ jobOwner jobData = .ok owner ∧ ownedBy owner user.login = true

/-- The permission and job-ownership checks of the view accept the user and the target. -/
structure Accepts (app : App F) (user : User) (i : Interface) (target : Target) : Prop where
  permission : permissionRequired app user (view user target i).requirements = .ok ()
  scope : ∀ operation, (view user target i).scopeOperation = some operation →
    ∃ scope, permissionScope app user "jobs" operation = .ok (some scope)
  owner : ∀ operation jobId, (view user target i).jobOperation = some operation → target = .job jobId →
    OwnerAccepted app user jobId operation

/-- The arguments name a target and the view accepts user and target. -/
def Accepted (app : App F) (user : User) (i : Interface) (arguments : Arguments F) : Prop :=
  ∃ target, i.target user arguments = .ok target ∧ Accepts app user i target

/-- `_authorize_job_owner` returns the job when the user is accepted and the job is found. -/
theorem authorizeJobOwner_ok_iff {app : App F} {user : User} {jobId : Int} {operation : Str} :
    (∃ jobData, authorizeJobOwner app user jobId operation = .ok jobData) ↔
      OwnerAccepted app user jobId operation ∧ ∃ jobData, app.job jobId = .ok jobData := by
  unfold authorizeJobOwner OwnerAccepted
  cases hs : permissionScope app user "jobs" operation with
  | error e => simp [ruleRaise, Except.mapError]
  | ok r =>
    cases r with
    | none => simp [ruleRaise, Except.mapError, abort403]
    | some scope =>
      cases hj : app.job jobId with
      | error e => simp [ruleRaise, backendRaise, Except.mapError]
      | ok jobData =>
        rcases permissionScope_cases hs with rfl | rfl
        · simp [ruleRaise, backendRaise, Except.mapError]
        · cases ho : jobOwner jobData with
          | error e => simp [ruleRaise, backendRaise, pyRaise, Except.mapError, ho]
          | ok owner =>
            by_cases hown : ownedBy owner user.login = true
            · simp [ruleRaise, backendRaise, pyRaise, Except.mapError, ho, hown]
            · simp [ruleRaise, backendRaise, pyRaise, Except.mapError, ho, hown, abort403]

end SlurmWeb.Assistant
