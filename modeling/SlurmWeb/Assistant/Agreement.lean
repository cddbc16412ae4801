import SlurmWeb.Assistant.HttpViews

/-!
# The assistant and the HTTP views decide alike

Both sides ask the same policy, the assistant in its handlers, the HTTP side in decorators. For
each interface the handler `Agrees` with the view: it returns or writes only where the view's
checks accept, and where they accept it does not answer 403.

* `agrees_read`, `agrees_write` — the interfaces that start with a list of requirements.
* `agrees_jobWrite` — job updates, which look at the job's owner.
* `execute_agrees` — every interface of the registry.
-/

namespace SlurmWeb.Assistant

open Strings Py

variable {F : Type}

/-- A refusal. -/
def Is403 : ExecError → Prop
  | .interface status _ => status = 403
  | .http status _ => status = 403
  | .backend _ => False

/-- A computation that does not refuse. -/
def Clean {α : Type} (x : Except ExecError α) : Prop := ∀ e, x = .error e → ¬ Is403 e

/-! ## The policy's answers -/

section Policy

variable (app : App F) (login : Str) (groups : List Str)

/-- The policy allows a requirement. -/
def Allows (app : App F) (user : User) (r : Str × Str × Str) : Prop :=
  app.policy.allowedUserPermission user r.1 r.2.1 r.2.2 = .ok true

theorem anyAllowed_ok (requirements : List (Str × Str × Str)) :
    ∃ b, anyAllowed app (.authenticated login groups) requirements = .ok b ∧
      (b = true ↔ ∃ r ∈ requirements, Allows app (.authenticated login groups) r) := by
  induction requirements with
  | nil => exact ⟨false, rfl, by simp⟩
  | cons r requirements ih =>
    obtain ⟨b, hb, hiff⟩ := ih
    obtain ⟨c, hc⟩ := app.policy.allowedUserPermission_total login groups r.1 r.2.1 r.2.2
    have hallow : Allows app (.authenticated login groups) r ↔ c = true := by
      rw [Allows, hc, Except.ok.injEq]
    cases c with
    | true => exact ⟨true, by simp [anyAllowed, hc], by simp [hallow]⟩
    | false => exact ⟨b, by simp [anyAllowed, hc, hb], by simp [hallow, hiff]⟩

theorem requireAny_ok_iff (requirements : List (Str × Str × Str)) :
    requireAny app (.authenticated login groups) requirements = .ok () ↔
      ∃ r ∈ requirements, Allows app (.authenticated login groups) r := by
  obtain ⟨b, hb, hiff⟩ := anyAllowed_ok app login groups requirements
  rw [← hiff]
  cases b <;> simp [requireAny, ruleRaise, Except.mapError, hb, forbidden]

theorem permissionRequired_ok_iff (requirements : List (Str × Str × Str)) :
    permissionRequired app (.authenticated login groups) requirements = .ok () ↔
      ∃ r ∈ requirements, Allows app (.authenticated login groups) r := by
  obtain ⟨b, hb, hiff⟩ := anyAllowed_ok app login groups requirements
  rw [← hiff]
  cases b <;> simp [permissionRequired, ruleRaise, Except.mapError, hb, abort403]

theorem permissionScope_total (resource operation : Str) :
    ∃ r, permissionScope app (.authenticated login groups) resource operation = .ok r := by
  obtain ⟨b, hb⟩ := app.policy.allowedUserPermission_total login groups resource operation "*"
  obtain ⟨c, hc⟩ := app.policy.allowedUserPermission_total login groups resource operation "self"
  cases b <;> cases c <;> simp_all [permissionScope]

/-- A user with a login holds a scope exactly when one of the two is allowed. -/
theorem permissionScope_some_iff (hlogin : login ≠ []) (resource operation : Str) :
    (∃ scope, permissionScope app (.authenticated login groups) resource operation = .ok (some scope)) ↔
      ∃ r ∈ [(resource, operation, "*".toList), (resource, operation, "self".toList)],
        Allows app (.authenticated login groups) r := by
  obtain ⟨b, hb⟩ := app.policy.allowedUserPermission_total login groups resource operation "*"
  obtain ⟨c, hc⟩ := app.policy.allowedUserPermission_total login groups resource operation "self"
  cases b <;> cases c <;> simp_all [permissionScope, Allows, User.login]

theorem requirePermissionScope_ok_iff {resource operation scope : Str} :
    requirePermissionScope app (.authenticated login groups) resource operation = .ok scope ↔
      permissionScope app (.authenticated login groups) resource operation = .ok (some scope) := by
  obtain ⟨r, hr⟩ := permissionScope_total app login groups resource operation
  cases r <;> simp [requirePermissionScope, ruleRaise, Except.mapError, hr, forbidden]

end Policy

/-! ## Computations that do not refuse -/

theorem Clean.ok {α : Type} (a : α) : Clean (.ok a : Except ExecError α) := fun _ h => by cases h

theorem Clean.bind {α β : Type} {x : Except ExecError α} {f : α → Except ExecError β} (hx : Clean x)
    (hf : ∀ a, x = .ok a → Clean (f a)) : Clean (x >>= f) := by
  intro e he
  rcases Except.bind_eq_error.1 he with h | ⟨a, ha, h⟩
  · exact hx e h
  · exact hf a ha e h

theorem Clean.interface {α : Type} {status : Nat} (h : status ≠ 403) (message : Str) :
    Clean (.error (.interface status message) : Except ExecError α) := by
  intro e he
  cases he
  exact h

theorem Clean.backend {α : Type} (err : BackendError) : Clean (.error (.backend err) : Except ExecError α) := by
  intro e he
  cases he
  exact id

theorem clean_backendRaise {α : Type} (x : Except BackendError α) : Clean (backendRaise x) := by
  cases x with
  | ok a => exact Clean.ok a
  | error e => exact Clean.backend e

theorem clean_pyRaise {α : Type} (x : Except Py.Error α) : Clean (pyRaise x) := by
  cases x with
  | ok a => exact Clean.ok a
  | error e => exact Clean.backend _

theorem backendRaise_eq_ok {α : Type} {x : Except BackendError α} {a : α} : backendRaise x = .ok a ↔ x = .ok a := by
  cases x <;> simp [backendRaise, Except.mapError]

theorem pyRaise_eq_ok {α : Type} {x : Except Py.Error α} {a : α} : pyRaise x = .ok a ↔ x = .ok a := by
  cases x <;> simp [pyRaise, Except.mapError]

theorem clean_ensureWriteSupported (app : App F) (operation : Str) : Clean (ensureWriteSupported app operation) := by
  refine (clean_backendRaise _).bind fun apiVersion _ => ?_
  split
  · exact Clean.ok _
  · exact Clean.interface (by decide) _

theorem clean_payloadArgument (arguments : Arguments F) : Clean (payloadArgument arguments) := by
  unfold payloadArgument
  split
  · exact Clean.ok _
  · exact Clean.interface (by decide) _

theorem clean_validateAccounts : ∀ (index : Nat) (entries : List (Value F)), Clean (validateAccounts index entries)
  | _, [] => Clean.ok _
  | index, .dict account :: entries => by
    unfold validateAccounts
    split
    · exact Clean.interface (by decide) _
    · split
      · exact Clean.interface (by decide) _
      · exact clean_validateAccounts (index + 1) entries
  | _, .none :: _ | _, .bool _ :: _ | _, .int _ :: _ | _, .float _ :: _ | _, .str _ :: _ | _, .list _ :: _ =>
    Clean.interface (by decide) _

theorem clean_validateQosFields (index : Nat) (qos : Arguments F) :
    ∀ fields : List Str, Clean (validateQosFields index qos fields)
  | [] => Clean.ok _
  | field :: fields => by
    unfold validateQosFields
    split
    · exact Clean.interface (by decide) _
    · exact clean_validateQosFields index qos fields

theorem clean_validateQos : ∀ (index : Nat) (entries : List (Value F)), Clean (validateQos index entries)
  | _, [] => Clean.ok _
  | index, .dict qos :: entries => by
    unfold validateQos
    split
    · exact Clean.interface (by decide) _
    · exact (clean_validateQosFields index qos _).bind fun _ _ => clean_validateQos (index + 1) entries
  | _, .none :: _ | _, .bool _ :: _ | _, .int _ :: _ | _, .float _ :: _ | _, .str _ :: _ | _, .list _ :: _ =>
    Clean.interface (by decide) _

theorem clean_validateAccountsPayload (payload : Arguments F) : Clean (validateAccountsPayload payload) :=
  (clean_validateAccounts _ _).bind fun _ _ => Clean.ok _

theorem clean_validateQosPayload (payload : Arguments F) : Clean (validateQosPayload payload) :=
  (clean_validateQos _ _).bind fun _ _ => Clean.ok _

theorem clean_byPayload (arguments : Arguments F) (write : Value F → Write F) : Clean (byPayload arguments write) :=
  (clean_payloadArgument _).bind fun _ _ => Clean.ok _

theorem clean_normalizeOperationResult (app : App F) (operation : Str) (target response : Value F) :
    Clean (normalizeOperationResult app operation target response) := by
  refine Clean.bind ?_ fun apiVersion _ => ?_
  · unfold currentApiVersion
    split
    · exact Clean.ok _
    · exact clean_backendRaise _
  · split
    · exact Clean.ok _
    · exact Clean.backend _

theorem clean_handleSlurmrestdErrors {α : Type} {x : Except ExecError α} (hx : Clean x) :
    Clean (x.mapError handleSlurmrestdErrors) := by
  intro e he
  cases x with
  | ok a => cases he
  | error e' =>
    cases he
    have h := hx e' rfl
    cases e' with
    | interface status message => exact h
    | http status message => exact h
    | backend err => cases err <;> simp [handleSlurmrestdErrors, slurmrestdStatus, Is403]

section Arguments

variable [Python F]

theorem clean_intArgument (arguments : Arguments F) (key : Str) : Clean (intArgument arguments key) := by
  unfold intArgument
  split
  · exact Clean.interface (by decide) _
  · split
    · exact Clean.ok _
    · exact Clean.interface (by decide) _
    · exact Clean.interface (by decide) _
    · exact Clean.backend _

theorem clean_stringArgument (arguments : Arguments F) (key : Str) : Clean (stringArgument arguments key) := by
  unfold stringArgument
  simp only
  split
  · exact Clean.interface (by decide) _
  · exact Clean.ok _

theorem clean_byName (arguments : Arguments F) (key : Str) (write : Str → Write F) :
    Clean (byName arguments key write) :=
  (clean_stringArgument _ _).bind fun _ _ => Clean.ok _

theorem clean_byNamePayload (arguments : Arguments F) (key : Str) (write : Str → Value F → Write F) :
    Clean (byNamePayload arguments key write) :=
  (clean_stringArgument _ _).bind fun _ _ => (clean_payloadArgument _).bind fun _ _ => Clean.ok _

theorem clean_datetimeArgument (app : App F) (arguments : Arguments F) (key : Str) :
    Clean (datetimeArgument app arguments key) := by
  unfold datetimeArgument
  split
  · exact Clean.ok _
  · split
    · exact Clean.ok _
    · exact Clean.interface (by decide) _

theorem clean_limitItems (items limit : Value F) : Clean (limitItems items limit) := by
  unfold limitItems
  split
  · exact Clean.ok _
  · exact (clean_pyRaise _).bind fun _ _ => Clean.ok _
  · exact Clean.ok _

theorem clean_metricsRead (app : App F) (arguments : Arguments F) (call : Str → Read F) :
    Clean (metricsRead app arguments call) := by
  unfold metricsRead
  split
  · exact Clean.interface (by decide) _
  · exact (clean_stringArgument _ _).bind fun _ _ => Clean.ok _

end Arguments

/-! ## Agreement of a handler with its view -/

/-- The handler returns or writes only where the view accepts, and does not refuse where it does. -/
structure Agrees [Python F] (app : App F) (user : User) (i : Interface) (arguments : Arguments F)
    (m : Handler F (AIAgentInterfaceResult F)) : Prop where
  sound : Prog.Acts (Accepted app user i arguments) m
  complete : Accepted app user i arguments → Prog.Avoids Is403 m

/-- The same for a list of requirements alone. -/
structure Gated (app : App F) (user : User) (requirements : List (Str × Str × Str))
    (m : Handler F (AIAgentInterfaceResult F)) : Prop where
  sound : Prog.Acts (requireAny app user requirements = .ok ()) m
  complete : requireAny app user requirements = .ok () → Prog.Avoids Is403 m

section Families

variable (app : App F) (login : Str) (groups : List Str)

theorem acts_requireAny (requirements : List (Str × Str × Str))
    (f : Unit → Except ExecError (AIAgentInterfaceResult F)) :
    Prog.Acts (requireAny app (.authenticated login groups) requirements = .ok ())
      (Prog.check (requireAny app (.authenticated login groups) requirements >>= f)
        : Handler F (AIAgentInterfaceResult F)) := by
  refine Prog.Acts.check fun a ha => ?_
  obtain ⟨_, hreq, -⟩ := Except.bind_eq_ok.1 ha
  exact hreq

/-- A handler that starts with its requirements. -/
theorem gated_check (requirements : List (Str × Str × Str)) {f : Unit → Except ExecError (AIAgentInterfaceResult F)}
    (hf : Clean (f ())) :
    Gated app (.authenticated login groups) requirements
      (Prog.check (requireAny app (.authenticated login groups) requirements >>= f)) where
  sound := acts_requireAny app login groups requirements f
  complete hreq := by
    refine Prog.Avoids.check ?_
    rw [hreq]
    exact hf

/-- The decorator over one's own jobs or all jobs asks for either scope. -/
theorem permissionRequired_jobs_iff (hlogin : login ≠ []) (operation : Str) (scopeOperation jobOperation : Option Str) :
    permissionRequired app (.authenticated login groups)
        (jobsView operation scopeOperation jobOperation).requirements = .ok () ↔
      ∃ scope, permissionScope app (.authenticated login groups) "jobs" operation = .ok (some scope) :=
  (permissionRequired_ok_iff app login groups _).trans (permissionScope_some_iff app login groups hlogin _ _).symm

theorem clean_requirePermissionScope {resource operation : Str}
    (h : ∃ scope, permissionScope app (.authenticated login groups) resource operation = .ok (some scope)) :
    Clean (requirePermissionScope app (.authenticated login groups) resource operation) := by
  obtain ⟨scope, h⟩ := h
  rw [(requirePermissionScope_ok_iff app login groups).2 h]
  exact Clean.ok _

/-- Beside `self` the assistant asks for `*` on a user's own name, which `self` follows from. -/
theorem userAnalysisAllowed_ok (username : Str) :
    ∃ b, userAnalysisAllowed app (.authenticated login groups) username = .ok b ∧
      (b = true ↔ permissionRequired app (.authenticated login groups)
        (userAnalysisView (.authenticated login groups) (.user username)).requirements = .ok ()) := by
  obtain ⟨b, hb, hiff⟩ := anyAllowed_ok app login groups
    ((if (User.authenticated login groups).login = some username then
        [("user/analysis".toList, "view".toList, "self".toList)] else []) ++
      [("user/analysis".toList, "view".toList, "*".toList), ("jobs".toList, "view".toList, "*".toList)])
  refine ⟨b, hb, hiff.trans ?_⟩
  rw [permissionRequired_ok_iff, userAnalysisView, plainView, analysisScope]
  by_cases hself : (User.authenticated login groups).login = some username
  · rw [if_pos hself, if_pos hself]
    constructor
    · rintro ⟨r, hr, hallows⟩
      rcases List.mem_append.1 hr with hr | hr
      · exact ⟨r, List.mem_cons.2 (.inl (List.mem_singleton.1 hr)), hallows⟩
      · rcases List.mem_cons.1 hr with rfl | hr
        · exact ⟨_, List.mem_cons_self, app.policy.allowedUserPermission_self login groups _ _ hallows⟩
        · exact ⟨r, List.mem_cons_of_mem _ hr, hallows⟩
    · rintro ⟨r, hr, hallows⟩
      rcases List.mem_cons.1 hr with rfl | hr
      · exact ⟨_, List.mem_append_left _ List.mem_cons_self, hallows⟩
      · exact ⟨r, List.mem_append_right _ (List.mem_cons_of_mem _ hr), hallows⟩
  · rw [if_neg hself, if_neg hself, List.nil_append]

variable [Python F]

theorem avoids_perform (operation interfaceKey : Str) (statusCode : Nat) (target : Value F) (write : Write F) :
    Prog.Avoids Is403 (perform app operation interfaceKey statusCode target write) := by
  refine (Prog.Avoids.act (clean_backendRaise _)).bind fun response => ?_
  refine (Prog.Avoids.check (clean_normalizeOperationResult _ _ _ _)).bind fun payload => ?_
  exact Prog.Avoids.ret _

theorem gated_guardedRead (requirements : List (Str × Str × Str)) (interfaceKey : Str)
    {call : Except ExecError (Read F)} (hcall : Clean call) :
    Gated app (.authenticated login groups) requirements
      (Prog.check (guardedRead app (.authenticated login groups) requirements interfaceKey call)) :=
  gated_check app login groups requirements
    (hcall.bind fun _ _ => (clean_backendRaise _).bind fun _ _ => Clean.ok _)

theorem gated_guardedList (arguments : Arguments F) (requirements : List (Str × Str × Str)) (interfaceKey : Str)
    (call : Read F) :
    Gated app (.authenticated login groups) requirements
      (Prog.check (guardedList app (.authenticated login groups) arguments requirements interfaceKey call)) :=
  gated_check app login groups requirements
    ((clean_backendRaise _).bind fun _ _ => (clean_limitItems _ _).bind fun _ _ => Clean.ok _)

theorem gated_guardedWrite (resource permission operation interfaceKey : Str) (statusCode : Nat)
    {request : Except ExecError (Value F × Write F)} (hrequest : Clean request) :
    Gated app (.authenticated login groups) [(resource, permission, "*".toList)]
      (guardedWrite app (.authenticated login groups) resource permission operation interfaceKey
        statusCode request) where
  sound := Prog.Acts.bind (Prog.Acts.check fun _ h => h)
  complete hreq := by
    refine Prog.Avoids.bind (Prog.Avoids.check ?_) fun _ => ?_
    · rw [requirePermission, hreq]
      exact Clean.ok _
    refine Prog.Avoids.bind (Prog.Avoids.check (clean_ensureWriteSupported app operation)) fun _ => ?_
    refine Prog.Avoids.bind (Prog.Avoids.check hrequest) fun _ => ?_
    exact avoids_perform app operation interfaceKey statusCode _ _

theorem gated_jobsHistory (arguments : Arguments F) :
    Gated app (.authenticated login groups) [("jobs-history", "view", "*")]
      (Prog.check (jobsHistory app (.authenticated login groups) arguments)) := by
  refine gated_check app login groups _ ?_
  dsimp only
  split
  · exact Clean.interface (by decide) _
  · exact ((clean_pyRaise _).bind fun _ _ => Clean.ok _).bind fun _ _ =>
      (clean_backendRaise _).bind fun _ _ => Clean.ok _

theorem gated_jobHistoryDetail (arguments : Arguments F) :
    Gated app (.authenticated login groups) [("jobs-history", "view", "*")]
      (Prog.check (jobHistoryDetail app (.authenticated login groups) arguments)) := by
  refine gated_check app login groups _ ?_
  split
  · exact Clean.interface (by decide) _
  · refine (clean_intArgument _ _).bind fun recordId _ => (clean_backendRaise _).bind fun record _ => ?_
    split
    · exact Clean.interface (by decide) _
    · exact Clean.ok _

/-- The view called from within asks for what the handler has already checked. -/
theorem gated_analysisContext (arguments : Arguments F) :
    Gated app (.authenticated login groups) [("analysis", "view", "*")]
      (Prog.check (analysisContext app (.authenticated login groups) arguments)) where
  sound := acts_requireAny app login groups _ _
  complete hreq := by
    refine Prog.Avoids.check ?_
    have hany := hreq
    unfold requireAny at hany
    obtain ⟨allowed, hallowed, hany⟩ := Except.bind_eq_ok.1 hany
    cases allowed with
    | false => cases hany
    | true =>
      rw [analysisContext, hreq]
      refine (clean_handleSlurmrestdErrors ?_).bind fun _ _ => Clean.ok _
      rw [hallowed]
      exact clean_backendRaise _

/-! ### From requirements to views -/

variable {i : Interface} {arguments : Arguments F} {m : Handler F (AIAgentInterfaceResult F)}

theorem accepted_plain_iff {requirements : List (Str × Str × Str)}
    (htarget : i.target (.authenticated login groups) arguments = .ok .none)
    (hview : view (.authenticated login groups) .none i = plainView requirements) :
    Accepted app (.authenticated login groups) i arguments ↔
      requireAny app (.authenticated login groups) requirements = .ok () := by
  rw [requireAny_ok_iff, ← permissionRequired_ok_iff]
  constructor
  · rintro ⟨target, htarget', haccepts⟩
    cases htarget.symm.trans htarget'
    have h := haccepts.permission
    rwa [hview] at h
  · intro h
    exact ⟨.none, htarget, ⟨by rwa [hview], by simp [hview, plainView], by simp [hview, plainView]⟩⟩

theorem Gated.agrees {requirements : List (Str × Str × Str)}
    (h : Gated app (.authenticated login groups) requirements m)
    (htarget : i.target (.authenticated login groups) arguments = .ok .none)
    (hview : view (.authenticated login groups) .none i = plainView requirements) :
    Agrees app (.authenticated login groups) i arguments m where
  sound := h.sound.mono (accepted_plain_iff app login groups htarget hview).2
  complete := fun ha => h.complete ((accepted_plain_iff app login groups htarget hview).1 ha)

theorem agrees_read {requirements : List (Str × Str × Str)} {interfaceKey : Str} {call : Except ExecError (Read F)}
    (hm : m = Prog.check (guardedRead app (.authenticated login groups) requirements interfaceKey call))
    (hcall : Clean call) (htarget : i.target (.authenticated login groups) arguments = .ok .none)
    (hview : view (.authenticated login groups) .none i = plainView requirements) :
    Agrees app (.authenticated login groups) i arguments m := by
  rw [hm]
  exact (gated_guardedRead app login groups requirements interfaceKey hcall).agrees app login groups htarget hview

theorem agrees_list {requirements : List (Str × Str × Str)} {interfaceKey : Str} {call : Read F}
    (hm : m = Prog.check (guardedList app (.authenticated login groups) arguments requirements interfaceKey call))
    (htarget : i.target (.authenticated login groups) arguments = .ok .none)
    (hview : view (.authenticated login groups) .none i = plainView requirements) :
    Agrees app (.authenticated login groups) i arguments m := by
  rw [hm]
  exact (gated_guardedList app login groups arguments requirements interfaceKey call).agrees app
    login groups htarget hview

theorem agrees_write {resource permission operation interfaceKey : Str} {statusCode : Nat}
    {request : Except ExecError (Value F × Write F)}
    (hm : m = guardedWrite app (.authenticated login groups) resource permission operation
      interfaceKey statusCode request)
    (hrequest : Clean request) (htarget : i.target (.authenticated login groups) arguments = .ok .none)
    (hview : view (.authenticated login groups) .none i = plainView [(resource, permission, "*".toList)]) :
    Agrees app (.authenticated login groups) i arguments m := by
  rw [hm]
  exact (gated_guardedWrite app login groups resource permission operation interfaceKey statusCode hrequest).agrees
    app login groups htarget hview

/-! ### Jobs -/

theorem agrees_jobs (hlogin : login ≠ []) (arguments : Arguments F) :
    Agrees app (.authenticated login groups) .jobs arguments
      (Prog.check (jobs app (.authenticated login groups) arguments)) where
  sound := by
    refine Prog.Acts.check fun _ h => ?_
    obtain ⟨scope, hscope, -⟩ := Except.bind_eq_ok.1 h
    have hheld : ∃ scope, permissionScope app (.authenticated login groups) "jobs" "view" = .ok (some scope) :=
      ⟨scope, (requirePermissionScope_ok_iff app login groups).1 hscope⟩
    refine ⟨.none, rfl, ?_, ?_, ?_⟩
    · exact (permissionRequired_jobs_iff app login groups hlogin _ _ _).2 hheld
    · rintro operation ⟨⟩
      exact hheld
    · intro operation jobId h
      cases h
  complete := by
    rintro ⟨target, -, haccepts⟩
    have hheld := (permissionRequired_jobs_iff app login groups hlogin "view" (some "view") none).1 haccepts.permission
    refine Prog.Avoids.check ((clean_requirePermissionScope app login groups hheld).bind fun scope _ => ?_)
    have hlimit : ∀ jobs : Value F, Clean (limitItems jobs (argument arguments "limit") >>= fun items =>
        pure (result "jobs" items 200)) := fun jobs => (clean_limitItems _ _).bind fun _ _ => Clean.ok _
    refine (clean_backendRaise _).bind fun read _ => ?_
    dsimp only
    split
    · exact (clean_pyRaise _).bind fun jobs _ => hlimit jobs
    · exact (Clean.ok read).bind fun jobs _ => hlimit jobs

/-- What the ownership check accepts, a scope is held for. -/
theorem OwnerAccepted.held {app : App F} {user : User} {jobId : Int} {operation : Str}
    (h : OwnerAccepted app user jobId operation) :
    ∃ scope, permissionScope app user "jobs" operation = .ok (some scope) := by
  rcases h with h | ⟨h, -⟩ <;> exact ⟨_, h⟩

/-- With the scope `self` the accepted job is the user's. -/
theorem OwnerAccepted.ownedBy {app : App F} {user : User} {jobId : Int} {operation : Str} {jobData : Value F}
    {owner : Option (Value F)} (h : OwnerAccepted app user jobId operation)
    (hscope : permissionScope app user "jobs" operation = .ok (some "self".toList))
    (hjob : app.job jobId = .ok jobData) (howner : jobOwner jobData = .ok owner) :
    Assistant.ownedBy owner user.login = true := by
  rcases h with h | ⟨-, jobData', owner', hjob', howner', h⟩
  · rw [h, Except.ok.injEq, Option.some.injEq] at hscope
    exact absurd hscope (by decide)
  · cases hjob.symm.trans hjob'
    cases howner.symm.trans howner'
    exact h

/-- The view of one job accepts when its ownership check does. -/
theorem accepted_job_iff (hlogin : login ≠ []) {i : Interface} (operation : Str) {arguments : Arguments F}
    (hview : ∀ target, view (.authenticated login groups) target i = jobsView operation none (some operation))
    (htarget : i.target (.authenticated login groups) arguments = (do return .job (← intArgument arguments "job_id"))) :
    Accepted app (.authenticated login groups) i arguments ↔
      ∃ jobId, intArgument arguments "job_id" = .ok jobId ∧
        OwnerAccepted app (.authenticated login groups) jobId operation := by
  constructor
  · rintro ⟨target, ht, haccepts⟩
    rw [htarget] at ht
    obtain ⟨jobId, hid, ht⟩ := Except.bind_eq_ok.1 ht
    cases ht
    exact ⟨jobId, hid, haccepts.owner operation jobId (by rw [hview]; rfl) rfl⟩
  · rintro ⟨jobId, hid, howner⟩
    refine ⟨.job jobId, by rw [htarget, hid]; rfl, ?_, ?_, ?_⟩
    · rw [hview]
      exact (permissionRequired_jobs_iff app login groups hlogin _ _ _).2 howner.held
    · intro operation h
      rw [hview] at h
      cases h
    · intro operation' jobId' h ht
      rw [hview] at h
      cases h
      cases ht
      exact howner

theorem agrees_job (hlogin : login ≠ []) (arguments : Arguments F) :
    Agrees app (.authenticated login groups) .job arguments
      (Prog.check (job app (.authenticated login groups) arguments)) where
  sound := by
    refine Prog.Acts.check fun out h => ?_
    rw [accepted_job_iff app login groups hlogin "view" (fun _ => rfl) rfl]
    obtain ⟨jobId, hid, h⟩ := Except.bind_eq_ok.1 h
    obtain ⟨scope, hscope, h⟩ := Except.bind_eq_ok.1 h
    rw [requirePermissionScope_ok_iff] at hscope
    refine ⟨jobId, hid, ?_⟩
    rcases permissionScope_cases hscope with rfl | rfl
    · exact .inl hscope
    · obtain ⟨jobData, hjob, h⟩ := Except.bind_eq_ok.1 h
      rw [if_pos rfl] at h
      obtain ⟨owner, howner, h⟩ := Except.bind_eq_ok.1 h
      split at h
      · exact .inr ⟨hscope, jobData, owner, backendRaise_eq_ok.1 hjob, pyRaise_eq_ok.1 howner, ‹_›⟩
      · cases h
  complete ha := by
    rw [accepted_job_iff app login groups hlogin "view" (fun _ => rfl) rfl] at ha
    obtain ⟨jobId, hid, haccepted⟩ := ha
    refine Prog.Avoids.check ?_
    rw [job, hid]
    refine (clean_requirePermissionScope app login groups haccepted.held).bind fun scope hscope => ?_
    rw [requirePermissionScope_ok_iff] at hscope
    refine (clean_backendRaise _).bind fun jobData hjob => ?_
    split
    · refine (clean_pyRaise _).bind fun owner howner => ?_
      subst scope
      rw [if_pos (haccepted.ownedBy hscope (backendRaise_eq_ok.1 hjob) (pyRaise_eq_ok.1 howner))]
      exact Clean.ok _
    · exact Clean.ok _

theorem authorizeJobWrite_sound {jobId : Int} {operation : Str}
    (h : authorizeJobWrite app (.authenticated login groups) jobId operation = .ok ()) :
    OwnerAccepted app (.authenticated login groups) jobId operation := by
  obtain ⟨scope, hscope, h⟩ := Except.bind_eq_ok.1 h
  rw [requirePermissionScope_ok_iff] at hscope
  rcases permissionScope_cases hscope with rfl | rfl
  · exact .inl hscope
  · rw [if_neg (by decide)] at h
    obtain ⟨jobData, hjob, h⟩ := Except.bind_eq_ok.1 h
    obtain ⟨owner, howner, h⟩ := Except.bind_eq_ok.1 h
    split at h
    · exact .inr ⟨hscope, jobData, owner, backendRaise_eq_ok.1 hjob, pyRaise_eq_ok.1 howner, ‹_›⟩
    · cases h

theorem clean_authorizeJobWrite {jobId : Int} {operation : Str}
    (h : OwnerAccepted app (.authenticated login groups) jobId operation) :
    Clean (authorizeJobWrite app (.authenticated login groups) jobId operation) := by
  refine (clean_requirePermissionScope app login groups h.held).bind fun scope hscope => ?_
  rw [requirePermissionScope_ok_iff] at hscope
  split
  · exact Clean.ok _
  next hstar =>
    refine (clean_backendRaise _).bind fun jobData hjob => (clean_pyRaise _).bind fun owner howner => ?_
    obtain rfl := (permissionScope_cases hscope).resolve_left hstar
    rw [if_pos (h.ownedBy hscope (backendRaise_eq_ok.1 hjob) (pyRaise_eq_ok.1 howner))]
    exact Clean.ok _

/-- Job updates check the write support first and the permission after the job id. -/
theorem agrees_jobWrite (hlogin : login ≠ []) {i : Interface} {permission operation interfaceKey : Str}
    {arguments : Arguments F} {write : Int → Except ExecError (Write F)} (hwrite : ∀ jobId, Clean (write jobId))
    (hview : ∀ target, view (.authenticated login groups) target i = jobsView permission none (some permission))
    (htarget : i.target (.authenticated login groups) arguments = (do return .job (← intArgument arguments "job_id"))) :
    Agrees app (.authenticated login groups) i arguments
      (jobWrite app (.authenticated login groups) arguments permission operation interfaceKey write) where
  sound := by
    rw [accepted_job_iff app login groups hlogin permission hview htarget]
    refine Prog.Acts.bind_check fun _ _ => Prog.Acts.bind_check fun jobId hid => ?_
    exact Prog.Acts.bind (Prog.Acts.check fun _ h => ⟨jobId, hid, authorizeJobWrite_sound app login groups h⟩)
  complete ha := by
    rw [accepted_job_iff app login groups hlogin permission hview htarget] at ha
    obtain ⟨jobId, hid, haccepted⟩ := ha
    refine Prog.Avoids.bind (Prog.Avoids.check (clean_ensureWriteSupported app operation)) fun _ => ?_
    refine Prog.Avoids.bind_check (clean_intArgument _ _) fun jobId' hid' => ?_
    cases hid.symm.trans hid'
    refine Prog.Avoids.bind (Prog.Avoids.check (clean_authorizeJobWrite app login groups haccepted)) fun _ => ?_
    refine Prog.Avoids.bind (Prog.Avoids.check (hwrite jobId)) fun _ => ?_
    exact avoids_perform app operation interfaceKey 200 _ _

theorem agrees_jobSubmit (hlogin : login ≠ []) (arguments : Arguments F) :
    Agrees app (.authenticated login groups) .jobSubmit arguments
      (jobSubmit app (.authenticated login groups) arguments) where
  sound := by
    refine Prog.Acts.bind (Prog.Acts.check fun scope hscope => ?_)
    rw [requirePermissionScope_ok_iff] at hscope
    refine ⟨.none, rfl, ?_, ?_, ?_⟩
    · exact (permissionRequired_jobs_iff app login groups hlogin _ _ _).2 ⟨scope, hscope⟩
    · intro operation h
      cases h
    · intro operation jobId h
      cases h
  complete := by
    rintro ⟨target, -, haccepts⟩
    have hheld := (permissionRequired_jobs_iff app login groups hlogin "edit" none none).1 haccepts.permission
    refine Prog.Avoids.bind (Prog.Avoids.check (clean_requirePermissionScope app login groups hheld)) fun _ => ?_
    refine Prog.Avoids.bind (Prog.Avoids.check (clean_ensureWriteSupported app _)) fun _ => ?_
    refine Prog.Avoids.bind (Prog.Avoids.check ((clean_payloadArgument _).bind fun _ _ => Clean.ok _)) fun _ => ?_
    exact avoids_perform app _ _ _ _ _

/-! ### User analysis -/

theorem clean_userMetricsRead (arguments : Arguments F) (interfaceKey : Str) (call : Option Int → Option Int → Read F) :
    Clean (userMetricsRead app arguments interfaceKey call) := by
  unfold userMetricsRead
  split
  · exact Clean.interface (by decide) _
  · exact (clean_datetimeArgument _ _ _).bind fun _ _ => (clean_datetimeArgument _ _ _).bind fun _ _ =>
      (clean_backendRaise _).bind fun _ _ => Clean.ok _

/-- A user's view accepts when its decorator does. -/
theorem accepted_user_iff (i : Interface) (arguments : Arguments F) (username : Str)
    (hview : ∀ target, view (.authenticated login groups) target i =
      userAnalysisView (.authenticated login groups) target)
    (htarget : i.target (.authenticated login groups) arguments = .ok (.user username)) :
    Accepted app (.authenticated login groups) i arguments ↔
      permissionRequired app (.authenticated login groups)
        (userAnalysisView (.authenticated login groups) (.user username)).requirements = .ok () := by
  constructor
  · rintro ⟨target, ht, haccepts⟩
    cases htarget.symm.trans ht
    have h := haccepts.permission
    rwa [hview] at h
  · intro h
    refine ⟨_, htarget, by rwa [hview], ?_, ?_⟩
    · intro operation h
      rw [hview] at h
      cases h
    · intro operation jobId h
      rw [hview] at h
      cases h

theorem agrees_userMetricsHistory (arguments : Arguments F) :
    Agrees app (.authenticated login groups) .userMetricsHistory arguments
      (Prog.check (userMetricsHistory app (.authenticated login groups) arguments)) := by
  cases hname : stringArgument arguments "username" with
  | error e =>
    refine ⟨Prog.Acts.check fun out h => ?_, fun _ => Prog.Avoids.check ?_⟩
    · rw [userMetricsHistory, hname] at h
      cases h
    · rw [userMetricsHistory, hname]
      intro e' h
      cases h
      exact clean_stringArgument arguments "username" e hname
  | ok username =>
    have hiff := accepted_user_iff app login groups .userMetricsHistory arguments username
      (fun _ => rfl) (by rw [Interface.target, hname]; rfl)
    obtain ⟨allowed, hallowed, hb⟩ := userAnalysisAllowed_ok app login groups username
    refine ⟨Prog.Acts.check fun out h => ?_, fun ha => Prog.Avoids.check ?_⟩
    · rw [userMetricsHistory, hname, Except.ok_bind, hallowed] at h
      cases allowed with
      | true => exact hiff.2 (hb.1 rfl)
      | false => cases h
    · rw [userMetricsHistory, hname, Except.ok_bind, hallowed, hb.2 (hiff.1 ha)]
      exact clean_userMetricsRead app arguments _ _

/-- One's own name apart, the tool analysis asks for what the history asks for. -/
theorem agrees_userToolsAnalysis {arguments : Arguments F}
    (hown : toolsUsername (.authenticated login groups) arguments ≠ some login) :
    Agrees app (.authenticated login groups) .userToolsAnalysis arguments
      (Prog.check (userToolsAnalysis app (.authenticated login groups) arguments)) := by
  cases hname : toolsUsername (.authenticated login groups) arguments with
  | none =>
    refine ⟨Prog.Acts.check fun out h => ?_, fun _ => Prog.Avoids.check ?_⟩
    · rw [userToolsAnalysis, hname] at h
      cases h
    · rw [userToolsAnalysis, hname]
      exact Clean.interface (by decide) _
  | some username =>
    have hother : (User.authenticated login groups).login ≠ some username := fun h =>
      hown (hname.trans h.symm)
    have hiff := accepted_user_iff app login groups .userToolsAnalysis arguments username
      (fun _ => rfl) (by simp [Interface.target, hname])
    obtain ⟨allowed, hallowed, hb⟩ := userAnalysisAllowed_ok app login groups username
    have hallowed' : userToolsAnalysisAllowed app (.authenticated login groups) username = .ok allowed := by
      rw [userToolsAnalysisAllowed, if_neg hother, hallowed]
    refine ⟨Prog.Acts.check fun out h => ?_, fun ha => Prog.Avoids.check ?_⟩
    · rw [userToolsAnalysis, hname] at h
      dsimp only at h
      rw [hallowed'] at h
      cases allowed with
      | true => exact hiff.2 (hb.1 rfl)
      | false => cases h
    · rw [userToolsAnalysis, hname]
      dsimp only
      rw [hallowed', hb.2 (hiff.1 ha)]
      exact clean_userMetricsRead app arguments _ _

/-! ### The registry -/

/-- Every handler agrees with its view, the tool analysis of the user's own name apart. -/
theorem handler_agrees (hlogin : login ≠ []) (i : Interface) (arguments : Arguments F)
    (hown : i = .userToolsAnalysis → toolsUsername (.authenticated login groups) arguments ≠ some login) :
    Agrees app (.authenticated login groups) i arguments (i.handler app (.authenticated login groups) arguments) := by
  have hname (read : Str → Read F) : Clean (stringArgument arguments "name" >>= fun name => pure (read name)) :=
    (clean_stringArgument _ _).bind fun _ _ => Clean.ok _
  cases i with
  | stats => exact agrees_read app login groups rfl (Clean.ok _) rfl rfl
  | analysisContext => exact (gated_analysisContext app login groups arguments).agrees app login groups rfl rfl
  | jobs => exact agrees_jobs app login groups hlogin arguments
  | job => exact agrees_job app login groups hlogin arguments
  | jobsHistory => exact (gated_jobsHistory app login groups arguments).agrees app login groups rfl rfl
  | jobHistoryDetail => exact (gated_jobHistoryDetail app login groups arguments).agrees app login groups rfl rfl
  | nodes => exact agrees_list app login groups rfl rfl rfl
  | node => exact agrees_read app login groups rfl (hname _) rfl rfl
  | nodeMetrics =>
    exact agrees_read app login groups rfl (clean_metricsRead _ _ _) rfl rfl
  | nodeMetricsHistory =>
    exact agrees_read app login groups rfl (clean_metricsRead _ _ _) rfl rfl
  | partitions => exact agrees_read app login groups rfl (Clean.ok _) rfl rfl
  | qos => exact agrees_read app login groups rfl (Clean.ok _) rfl rfl
  | reservations => exact agrees_read app login groups rfl (Clean.ok _) rfl rfl
  | accounts => exact agrees_read app login groups rfl (Clean.ok _) rfl rfl
  | account => exact agrees_read app login groups rfl (hname _) rfl rfl
  | associations => exact agrees_list app login groups rfl rfl rfl
  | users => exact agrees_list app login groups rfl rfl rfl
  | user => exact agrees_read app login groups rfl (hname _) rfl rfl
  | userMetricsHistory => exact agrees_userMetricsHistory app login groups arguments
  | userToolsAnalysis => exact agrees_userToolsAnalysis app login groups (hown rfl)
  | jobSubmit => exact agrees_jobSubmit app login groups hlogin arguments
  | jobUpdate =>
    exact agrees_jobWrite app login groups hlogin
      (fun _ => (clean_payloadArgument _).bind fun _ _ => Clean.ok _) (fun _ => rfl) rfl
  | jobCancel => exact agrees_jobWrite app login groups hlogin (fun _ => Clean.ok _) (fun _ => rfl) rfl
  | nodeUpdate | reservationUpdate =>
    exact agrees_write app login groups rfl (clean_byNamePayload _ _ _) rfl rfl
  | nodeDelete | reservationDelete | accountDelete | userDelete | qosDelete =>
    exact agrees_write app login groups rfl (clean_byName _ _ _) rfl rfl
  | reservationCreate | associationsUpdate | associationsDelete | usersUpdate =>
    exact agrees_write app login groups rfl (clean_byPayload _ _) rfl rfl
  | accountsUpdate =>
    refine agrees_write app login groups rfl ?_ rfl rfl
    exact (clean_payloadArgument _).bind fun _ _ => (clean_validateAccountsPayload _).bind fun _ _ => Clean.ok _
  | qosUpdate =>
    refine agrees_write app login groups rfl ?_ rfl rfl
    exact (clean_payloadArgument _).bind fun _ _ => (clean_validateQosPayload _).bind fun _ _ => Clean.ok _

theorem is403_of_handleBackendError {e : ExecError} (h : Is403 (handleBackendError e)) : Is403 e := by
  cases e with
  | interface status message => exact h
  | http status message => exact h
  | backend err => cases err <;> simp [handleBackendError, slurmrestdStatus, Is403] at h

/-- **The assistant is no way around the views**: what a registered interface returns or writes, the
view accepts; where the view accepts, there is no 403. -/
theorem execute_agrees (hlogin : login ≠ []) {interfaceKey : Str} {i : Interface}
    (hkey : Interface.ofKey interfaceKey = some i) (arguments : Arguments F)
    (hown : i = .userToolsAnalysis → toolsUsername (.authenticated login groups) arguments ≠ some login) :
    Agrees app (.authenticated login groups) i arguments
      (execute app (.authenticated login groups) interfaceKey arguments) := by
  have h := handler_agrees app login groups hlogin i arguments hown
  rw [execute, hkey]
  exact ⟨h.sound.handle, fun ha => Prog.Avoids.handle (fun _ => is403_of_handleBackendError) (h.complete ha)⟩

end Families

/-! ### A user with rights over the own jobs -/

def editOwnJobsRole : Role := ⟨"edit-own", none, [], NormalRules.toValid ⟨["jobs:edit:self"], by decide⟩⟩

/-- The only right of every user is to edit jobs of their own, and job 7 is alice's. -/
def ownJobCluster : App ℚ :=
  { emptyCluster with
    policy := ⟨⟨fun _ => ([], []), fun _ => false, []⟩, true,
      some ⟨defaultLegacyMap, fun _ => some [editOwnJobsRole]⟩, defaultLegacyMap⟩
    job := fun _ => .ok (.dict [("job_id", .int 7), ("user_name", .str "alice")]) }

theorem ownJobCluster_scope (login : Str) (hlogin : login ≠ []) :
    permissionScope ownJobCluster (.authenticated login []) "jobs" "edit" = .ok (some "self".toList) := by
  have hall : ownJobCluster.policy.allowedUserPermission (.authenticated login []) "jobs" "edit" "*" = .ok false := by
    rfl
  have hself : ownJobCluster.policy.allowedUserPermission (.authenticated login []) "jobs" "edit"
      "self" = .ok true := by
    rfl
  have hany : (User.login (.authenticated login [])).any (· ≠ []) := by simpa [User.login] using hlogin
  rw [permissionScope, hall]
  simp only [Except.ok_bind, hself, if_true, hany, Bool.false_eq_true, if_false]
  rfl

/-- Of alice and bob the view of job updates accepts alice. -/
theorem ownJobCluster_accepted (login : Str) (hlogin : login ≠ []) (payload : Arguments ℚ) :
    Accepted ownJobCluster (.authenticated login []) .jobUpdate [("job_id", .int 7), ("payload", .dict payload)] ↔
      login = "alice".toList := by
  constructor
  · rintro ⟨target, htarget, haccepts⟩
    cases htarget
    rcases haccepts.owner "edit" 7 rfl rfl with h | ⟨-, jobData, owner, hjob, howner, hown⟩
    · rw [ownJobCluster_scope login hlogin] at h
      exact absurd h (by decide)
    · cases hjob
      cases howner
      exact (beq_iff_eq.1 hown).symm
  · rintro rfl
    refine ⟨.job 7, rfl, ?_, ?_, ?_⟩
    · refine (permissionRequired_ok_iff ownJobCluster "alice" [] _).2 ⟨("jobs", "edit", "self"), ?_, rfl⟩
      simp [view, jobsView]
    · intro operation h
      cases h
    · rintro operation jobId ⟨⟩ ⟨⟩
      exact .inr ⟨ownJobCluster_scope _ hlogin, _, _, rfl, rfl, by decide⟩

theorem execute_agrees_jobUpdate :
    Accepted ownJobCluster (.authenticated "alice" []) .jobUpdate [("job_id", .int 7), ("payload", .dict [])] ∧
    ¬ Accepted ownJobCluster (.authenticated "bob" []) .jobUpdate [("job_id", .int 7), ("payload", .dict [])] ∧
    ∀ login ∈ ["alice".toList, "bob".toList],
      Agrees ownJobCluster (.authenticated login []) .jobUpdate [("job_id", .int 7), ("payload", .dict [])]
        (execute ownJobCluster (.authenticated login []) "job/update" [("job_id", .int 7), ("payload", .dict [])]) := by
  refine ⟨(ownJobCluster_accepted "alice" (by decide) []).2 rfl, ?_, ?_⟩
  · intro h
    exact absurd ((ownJobCluster_accepted "bob" (by decide) []).1 h) (by decide)
  · intro login hlogin
    refine execute_agrees ownJobCluster login [] ?_ (by decide) _ (by simp)
    rintro rfl
    revert hlogin
    decide

end SlurmWeb.Assistant
