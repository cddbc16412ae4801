import SlurmWeb.Lib.Strings

/-!
# The cluster data poller (frontend/src/composables/DataPoller.ts)

Code between two awaits runs at once; what waits is the poll that holds `_polling`, for its request,
and every `start` and `refresh` whose `await poll()` is over and whose last lines have yet to run.

| here | there |
| --- | --- |
| `poll`, `deliver` | `poll` (:95), up to its await and from it on |
| `start`, `refresh`, `resume` | `start` (:131) and `refresh` (:191), up to `await poll()` and from it on |
| `stop`, `retarget` | `stop` (:146), `setCluster` / `setCallback` / `setParam` (:153-189) |
| `abort` | `abortController` (RESTAPI.ts:18): a request that has settled is not touched |
| `step` | the event loop: what may happen, and what the handlers do |

What is reported elsewhere (`reportError`, `reportAuthenticationError`, the console) is left out. A
poll keeps the target its request was made for, and data the target they answer.

* `data_current` — the data answer the current target and a new target is asked for at once, in runs
  where no set function changes the target under a poll.
* `stale_data_delivered` — a run where the data are the old cluster's, and nobody asks for the new one.
* `quiet_iff` — after the unmount nothing is asked for and no timer armed if and only if the page is
  hidden or the one outstanding timer is the remembered one.
* `orphan_timer_polls` — a run that leaves a timer nobody remembers.
-/

namespace SlurmWeb.DataPoller

open Strings

variable {C K P R : Type}

structure Target (C K P : Type) where
  cluster : C
  callback : K
  otherParam : Option P
deriving DecidableEq

inductive Failure
  | authentication
  | permission
  | canceled
  | other
deriving DecidableEq

/-- How a request settles. -/
inductive Outcome (R : Type)
  | response (value : R)
  | failure (error : Failure)
deriving DecidableEq

/-- Who awaits a poll. -/
inductive Caller
  | start
  | refresh
deriving DecidableEq

/-- A poll that awaits its request. -/
structure Poll (C K P R : Type) where
  target : Target C K P
  settled : Option (Outcome R)
  caller : Caller
deriving DecidableEq

/-- The component; the visibility listener is there while it is mounted. -/
inductive Lifecycle
  | created
  | mounted
  | unmounted
deriving DecidableEq

structure State (C K P R : Type) where
  target : Target C K P
  /-- The data, with the target they answer. -/
  data : Option (R × Target C K P)
  dataSignature : Option Str
  unable : Bool
  loaded : Bool
  initialLoading : Bool
  refreshing : Bool
  stopped : Bool
  polling : Bool
  /-- `_timeout`; no timer at first -/
  timeout : Option Nat
  awaiting : Option (Poll C K P R)
  /-- The `start` and `refresh` to go on from `await poll()`. -/
  returned : List Caller
  /-- `document.hidden` -/
  hidden : Bool
  /-- `isTextInputActive()` -/
  textInput : Bool
  lifecycle : Lifecycle
  /-- The outstanding timers, and how many have been armed. -/
  timers : List Nat
  armed : Nat
  /-- The targets of the requests issued, in order. -/
  requests : List (Target C K P)
deriving DecidableEq

/-- `useClusterDataPoller(..)` on a visible page. -/
def State.init (target : Target C K P) : State C K P R :=
  ⟨target, none, none, false, false, true, false, false, false, none, none, [], false, false, .created, [], 0, []⟩

/-- `JSON.stringify`, of a param or of data. -/
structure Json (P R : Type) where
  serializeParam : Option P → Str
  serializeData : R → Option Str

/-- `clearTimeout(_timeout)` -/
def clearTimeout (s : State C K P R) : State C K P R :=
  { s with timers := s.timers.filter fun t => s.timeout ≠ some t }

/-- `_timeout = window.setTimeout(start, timeout)` -/
def setTimeout (s : State C K P R) : State C K P R :=
  { s with timers := s.armed :: s.timers, timeout := some s.armed, armed := s.armed + 1 }

/-- `poll` up to its await (:95-112) -/
def poll (caller : Caller) (s : State C K P R) : State C K P R :=
  if s.polling then { s with returned := caller :: s.returned }
  else { s with
    polling := true
    initialLoading := !s.loaded
    refreshing := s.loaded
    unable := false
    awaiting := some ⟨s.target, none, caller⟩
    requests := s.requests ++ [s.target] }

/-- `gateway.abort()` -/
def abort (s : State C K P R) : State C K P R :=
  { s with awaiting := s.awaiting.map fun p => { p with settled := p.settled.or (some (.failure .canceled)) } }

/-- `stop` (:146) -/
def stop (s : State C K P R) : State C K P R :=
  abort (clearTimeout { s with stopped := true })

/-- `start` up to `await poll()`, and to its end where it does not poll (:131) -/
def start (s : State C K P R) : State C K P R :=
  let s := clearTimeout s
  if s.hidden then { s with stopped := true }
  else
    let s := { s with stopped := false }
    if s.textInput then setTimeout s else poll .start s

/-- `refresh` up to `await poll()` (:191) -/
def refresh (s : State C K P R) : State C K P R :=
  poll .refresh { clearTimeout s with stopped := false }

/-- `start` and `refresh` from `await poll()` on. -/
def resume (caller : Caller) (s : State C K P R) : State C K P R :=
  match caller with
  | .start => if s.stopped then s else setTimeout s
  | .refresh => if s.stopped || s.hidden then s else setTimeout s

/-- What the set functions do once the new target is known. -/
def retarget (target : Target C K P) (s : State C K P R) : State C K P R :=
  start { stop s with
    target := target
    data := none
    dataSignature := none
    unable := false
    loaded := false
    initialLoading := true
    refreshing := false }

/-- `assignDataIfChanged` (:74) -/
def assignDataIfChanged (json : Json P R) (value : R) (target : Target C K P) (s : State C K P R) : State C K P R :=
  let signature := json.serializeData value
  if signature.isSome ∧ signature = s.dataSignature then s
  else { s with dataSignature := signature, data := some (value, target) }

/-- `poll` from its await on (:112-128), for a request that has settled. -/
def deliver (json : Json P R) (p : Poll C K P R) (outcome : Outcome R) (s : State C K P R) : State C K P R :=
  let s := match outcome with
    | .response value => { assignDataIfChanged json value p.target s with loaded := true }
    | .failure .authentication => s
    | .failure .permission => { stop s with unable := true }
    | .failure .canceled => s
    | .failure .other => { s with unable := true }
  { s with
    initialLoading := false
    refreshing := false
    polling := false
    awaiting := none
    returned := p.caller :: s.returned }

/-- `onUnmounted` (:209) -/
def unmount (s : State C K P R) : State C K P R := stop { s with lifecycle := .unmounted }

inductive Event (C K P R : Type)
  | mount
  | unmount
  | visibility (hidden : Bool)
  | focus (textInput : Bool)
  | expire (timer : Nat)
  | refresh
  | setCluster (newCluster : C)
  | setCallback (newCallback : K)
  | setParam (newOtherParam : Option P)
  | settle (outcome : Outcome R)
  | deliver
  | resume (caller : Caller)

/-- The target a set function goes on with; `setParam` returns early when the param reads the same. -/
def Event.newTarget (json : Json P R) (s : State C K P R) : Event C K P R → Option (Target C K P)
  | .setCluster newCluster => some { s.target with cluster := newCluster }
  | .setCallback newCallback => some { s.target with callback := newCallback }
  | .setParam newOtherParam =>
    if json.serializeParam s.target.otherParam = json.serializeParam newOtherParam then none
    else some { s.target with otherParam := newOtherParam }
  | _ => none

/-- One event; `none` where it cannot happen. -/
def step (json : Json P R) (s : State C K P R) (event : Event C K P R) : Option (State C K P R) :=
  match event with
  | .mount => if s.lifecycle = .created then some (start { s with lifecycle := .mounted }) else none
  | .unmount => if s.lifecycle = .mounted then some (unmount s) else none
  | .visibility hidden =>
    let s := { s with hidden := hidden }
    some (if s.lifecycle = .mounted then if hidden then stop s else start s else s)
  | .focus textInput => some { s with textInput := textInput }
  | .expire timer => if timer ∈ s.timers then some (start { s with timers := s.timers.filter (· ≠ timer) }) else none
  | .refresh => some (refresh s)
  | .setCluster _ | .setCallback _ | .setParam _ => match event.newTarget json s with
    | some target => some (retarget target s)
    | none => some s
  | .settle outcome => match s.awaiting with
    | some ⟨target, none, caller⟩ => some { s with awaiting := some ⟨target, some outcome, caller⟩ }
    | _ => none
  | .deliver => match s.awaiting with
    | some ⟨target, some outcome, caller⟩ => some (deliver json ⟨target, some outcome, caller⟩ outcome s)
    | _ => none
  | .resume caller =>
    if caller ∈ s.returned then some (resume caller { s with returned := s.returned.erase caller }) else none

/-- The states that events `allowed` in their state lead to. -/
abbrev Leads (json : Json P R) (allowed : State C K P R → Event C K P R → Prop) (s s' : State C K P R) : Prop :=
  Relation.ReflTransGen (fun s s' => ∃ event, allowed s event ∧ step json s event = some s') s s'

/-- What an event keeps, by what its handlers keep. -/
theorem step_rule {json : Json P R} {s s' : State C K P R} {event : Event C K P R} {I : State C K P R → Prop}
    (hstep : step json s event = some s') (h : I s)
    (env : ∀ s hidden textInput lifecycle, I s → I { s with hidden, textInput, lifecycle })
    (fired : ∀ s timer, I s → I { s with timers := s.timers.filter (· ≠ timer) })
    (hstart : ∀ s, I s → I (start s)) (hstop : ∀ s, I s → I (stop s)) (hrefresh : ∀ s, I s → I (refresh s))
    (hretarget : ∀ target ∈ event.newTarget json s, I (retarget target s))
    (hsettle : ∀ target caller outcome, s.awaiting = some ⟨target, none, caller⟩ →
      I { s with awaiting := some ⟨target, some outcome, caller⟩ })
    (hdeliver : ∀ p outcome, s.awaiting = some p → p.settled = some outcome → I (deliver json p outcome s))
    (hresume : ∀ caller, event = .resume caller → I (resume caller { s with returned := s.returned.erase caller })) :
      I s' := by
  have hset : (match event.newTarget json s with
      | some target => some (retarget target s)
      | none => some s) = some s' → I s' := by
    cases htarget : event.newTarget json s with
    | none =>
      rintro ⟨⟩
      exact h
    | some target =>
      rintro ⟨⟩
      exact hretarget target htarget
  cases event with
  | mount =>
    simp only [step, Option.ite_none_right_eq_some, Option.some.injEq] at hstep
    rw [← hstep.2]
    exact hstart _ (env s s.hidden s.textInput .mounted h)
  | unmount =>
    simp only [step, Option.ite_none_right_eq_some, Option.some.injEq] at hstep
    rw [← hstep.2]
    exact hstop _ (env s s.hidden s.textInput .unmounted h)
  | visibility hidden =>
    have hhidden := env s hidden s.textInput s.lifecycle h
    simp only [step, Option.some.injEq] at hstep
    rw [← hstep]
    split
    · split
      · exact hstop _ hhidden
      · exact hstart _ hhidden
    · exact hhidden
  | focus textInput =>
    cases hstep
    exact env s s.hidden textInput s.lifecycle h
  | expire timer =>
    simp only [step, Option.ite_none_right_eq_some, Option.some.injEq] at hstep
    rw [← hstep.2]
    exact hstart _ (fired s timer h)
  | refresh =>
    cases hstep
    exact hrefresh s h
  | setCluster newCluster => exact hset hstep
  | setCallback newCallback => exact hset hstep
  | setParam newOtherParam => exact hset hstep
  | settle outcome =>
    simp only [step] at hstep
    split at hstep
    · rename_i hawaiting
      cases hstep
      exact hsettle _ _ _ hawaiting
    · cases hstep
  | deliver =>
    simp only [step] at hstep
    split at hstep
    · rename_i hawaiting
      cases hstep
      exact hdeliver _ _ hawaiting rfl
    · cases hstep
  | resume caller =>
    simp only [step, Option.ite_none_right_eq_some, Option.some.injEq] at hstep
    rw [← hstep.2]
    exact hresume caller rfl

/-! ## The current target -/

/-- The data answer the current target. -/
def DataCurrent (s : State C K P R) : Prop := ∀ answer ∈ s.data, answer.2 = s.target

/-- The poll that waits asks for the current target, or has failed. -/
structure Current (s : State C K P R) : Prop where
  data : DataCurrent s
  awaiting : ∀ p ∈ s.awaiting, p.target = s.target ∨ ∃ error, p.settled = some (.failure error)
  polling : s.polling = false → s.awaiting = none

/-- Where no set function changes the target under a poll that could still ask or answer for the old one. -/
def Undisturbed (json : Json P R) (s : State C K P R) (event : Event C K P R) : Prop :=
  ∀ target ∈ event.newTarget json s, target ≠ s.target → s.polling = false ∨
    ((s.hidden = true ∨ s.textInput = true) ∧ ∀ p ∈ s.awaiting, ∀ value, p.settled ≠ some (.response value))

section Keeps

variable {s s' : State C K P R}

theorem current_init (target : Target C K P) : Current (.init target : State C K P R) :=
  ⟨nofun, nofun, fun _ => rfl⟩

theorem Current.frame (h : Current s) (htarget : s'.target = s.target) (hdata : s'.data = s.data)
    (hawaiting : s'.awaiting = s.awaiting) (hpolling : s'.polling = s.polling) : Current s' := by
  refine ⟨?_, ?_, ?_⟩
  · intro answer hanswer
    rw [htarget]
    exact h.data answer (hdata ▸ hanswer)
  · intro p hp
    rw [htarget]
    exact h.awaiting p (hawaiting ▸ hp)
  · rw [hawaiting, hpolling]
    exact h.polling

theorem current_poll (h : Current s) (caller : Caller) : Current (poll caller s) := by
  unfold poll
  by_cases hpolling : s.polling = true
  · rw [if_pos hpolling]
    exact h.frame rfl rfl rfl rfl
  · rw [if_neg hpolling]
    refine ⟨h.data, ?_, nofun⟩
    intro p hp
    cases hp
    exact .inl rfl

theorem current_abort (h : Current s) : Current (abort s) := by
  refine ⟨h.data, ?_, fun hp => by simp [abort, h.polling hp]⟩
  intro p hp
  obtain ⟨q, hq, rfl⟩ := Option.mem_map.1 hp
  refine (h.awaiting q hq).imp_right ?_
  rintro ⟨error, herror⟩
  exact ⟨error, by simp [herror]⟩

theorem current_stop (h : Current s) : Current (stop s) := by
  apply current_abort
  exact h.frame rfl rfl rfl rfl

theorem current_start (h : Current s) : Current (start s) := by
  unfold start
  simp only
  split
  · exact h.frame rfl rfl rfl rfl
  · split
    · exact h.frame rfl rfl rfl rfl
    · apply current_poll
      exact h.frame rfl rfl rfl rfl

theorem current_refresh (h : Current s) : Current (refresh s) := by
  apply current_poll
  exact h.frame rfl rfl rfl rfl

theorem current_resume (h : Current s) (caller : Caller) : Current (resume caller s) := by
  cases caller <;> simp only [resume] <;> split <;> exact h.frame rfl rfl rfl rfl

/-- An aborted request does not answer, unless it had. -/
theorem abort_failure (h : ∀ p ∈ s.awaiting, ∀ value, p.settled ≠ some (.response value)) :
    ∀ p ∈ (abort s).awaiting, ∃ error, p.settled = some (.failure error) := by
  intro p hp
  obtain ⟨q, hq, rfl⟩ := Option.mem_map.1 hp
  cases hsettled : q.settled with
  | none => exact ⟨.canceled, by simp⟩
  | some outcome =>
    cases outcome with
    | response value => exact absurd hsettled (h q hq value)
    | failure error => exact ⟨error, by simp⟩

theorem current_retarget (h : Current s) {target : Target C K P}
    (hundisturbed : target ≠ s.target → s.polling = false ∨
      ((s.hidden = true ∨ s.textInput = true) ∧ ∀ p ∈ s.awaiting, ∀ value, p.settled ≠ some (.response value))) :
    Current (retarget target s) := by
  have hstop := current_stop h
  apply current_start
  refine ⟨nofun, ?_, hstop.polling⟩
  by_cases htarget : target = s.target
  · subst htarget
    exact hstop.awaiting
  · intro p hp
    rcases hundisturbed htarget with hpolling | ⟨_, hunanswered⟩
    · have hnone : (stop s).awaiting = none := hstop.polling hpolling
      rw [hnone] at hp
      cases hp
    · exact .inr (abort_failure (s := clearTimeout { s with stopped := true }) hunanswered p hp)

theorem current_assign {json : Json P R} (h : Current s) {value : R} {target : Target C K P}
    (htarget : target = s.target) : Current (assignDataIfChanged json value target s) := by
  unfold assignDataIfChanged
  simp only
  split
  · exact h
  · refine ⟨?_, h.awaiting, h.polling⟩
    intro answer hanswer
    cases hanswer
    exact htarget

theorem current_deliver {json : Json P R} (h : Current s) {p : Poll C K P R} {outcome : Outcome R}
    (hp : s.awaiting = some p) (houtcome : p.settled = some outcome) : Current (deliver json p outcome s) := by
  have hdata : ∀ {s' : State C K P R}, DataCurrent s' → ∀ {loaded : Bool} {returned : List Caller},
      Current { s' with
        initialLoading := false, refreshing := loaded, polling := false, awaiting := none, returned := returned } :=
    fun h => ⟨h, nofun, fun _ => rfl⟩
  unfold deliver
  simp only
  apply hdata
  cases outcome with
  | response value =>
    have htarget : p.target = s.target := by
      rcases h.awaiting p hp with htarget | ⟨error, herror⟩
      · exact htarget
      · rw [houtcome] at herror
        cases herror
    exact (current_assign h htarget).data
  | failure error =>
    cases error with
    | permission => exact (current_stop h).data
    | _ => exact h.data

/-- What one event keeps. -/
theorem current_step {json : Json P R} {event : Event C K P R} (h : Current s) (hundisturbed : Undisturbed json s event)
    (hstep : step json s event = some s') : Current s' := by
  refine step_rule hstep h (fun _ _ _ _ h => h.frame rfl rfl rfl rfl) (fun _ _ h => h.frame rfl rfl rfl rfl)
    (fun _ => current_start) (fun _ => current_stop) (fun _ => current_refresh)
    (fun target htarget => current_retarget h (hundisturbed target htarget)) ?_ (fun _ _ => current_deliver h) ?_
  · intro target caller outcome hawaiting
    refine ⟨h.data, ?_, fun hp => by simp [h.polling hp] at hawaiting⟩
    rintro p ⟨⟩
    left
    rcases h.awaiting _ hawaiting with htarget | ⟨error, herror⟩
    · exact htarget
    · cases herror
  · intro caller _
    apply current_resume
    exact h.frame rfl rfl rfl rfl

end Keeps

theorem current_run {json : Json P R} {target : Target C K P} {s : State C K P R}
    (h : Leads json (Undisturbed json) (.init target) s) : Current s := by
  induction h with
  | refl => exact current_init target
  | tail _ hstep ih =>
    obtain ⟨event, hundisturbed, hstep⟩ := hstep
    exact current_step ih hundisturbed hstep

/-- A set function that changes the target of a visible page asks for the new one at once. -/
def AskedAtOnce (json : Json P R) (s : State C K P R) (event : Event C K P R) : Prop :=
  ∀ s', step json s event = some s' → s'.target ≠ s.target → s.hidden = false → s.textInput = false →
    s'.requests = s.requests ++ [s'.target]

/-- With no poll under way `start` polls. -/
theorem start_polls {s : State C K P R} (hhidden : s.hidden = false) (htext : s.textInput = false)
    (hpolling : s.polling = false) : (start s).requests = s.requests ++ [s.target] ∧ (start s).target = s.target := by
  simp [start, clearTimeout, hhidden, htext, poll, hpolling]

section Target

variable (s : State C K P R)

@[simp] theorem poll_target (caller : Caller) : (poll caller s).target = s.target := by
  unfold poll
  split <;> rfl

@[simp] theorem start_target : (start s).target = s.target := by
  unfold start
  simp only
  split
  · rfl
  · split
    · rfl
    · exact poll_target _ _

@[simp] theorem resume_target (caller : Caller) : (resume caller s).target = s.target := by
  cases caller <;> simp only [resume] <;> split <;> rfl

@[simp] theorem deliver_target (json : Json P R) (p : Poll C K P R) (outcome : Outcome R) :
    (deliver json p outcome s).target = s.target := by
  rcases outcome with value | ⟨⟨⟩⟩ <;> try rfl
  simp only [deliver, assignDataIfChanged]
  split <;> rfl

end Target

/-- Nothing but a set function changes the target. -/
theorem target_of_step {json : Json P R} {event : Event C K P R} {s s' : State C K P R}
    (hstep : step json s event = some s')
    (htarget : s'.target ≠ s.target) : ∃ target ∈ event.newTarget json s, s' = retarget target s := by
  cases hnew : event.newTarget json s with
  | none =>
    refine absurd ?_ htarget
    refine step_rule (I := fun s' => s'.target = s.target) hstep rfl ?_ ?_ ?_ ?_ ?_ ?_ ?_ ?_ ?_
    · exact fun _ _ _ _ h => h
    · exact fun _ _ h => h
    · exact fun s h => (start_target s).trans h
    · exact fun _ h => h
    · exact fun _ h => (poll_target _ _).trans h
    · simp [hnew]
    · exact fun _ _ _ _ => rfl
    · exact fun _ _ _ _ => deliver_target _ _ _ _
    · exact fun _ _ => resume_target _ _
  | some target =>
    refine ⟨target, rfl, ?_⟩
    cases event with
    | setCluster | setCallback | setParam =>
      simp only [step, hnew, Option.some.injEq] at hstep
      exact hstep.symm
    | _ => cases hnew

theorem asked_at_once {json : Json P R} {s : State C K P R} {event : Event C K P R}
    (hundisturbed : Undisturbed json s event) : AskedAtOnce json s event := by
  intro s' hstep hchanged hhidden htext
  obtain ⟨target, htarget, rfl⟩ := target_of_step hstep hchanged
  have hretarget : (retarget target s).target = target := by simp [retarget]
  rw [hretarget] at hchanged ⊢
  have hpolling : s.polling = false := by
    rcases hundisturbed target htarget hchanged with hpolling | ⟨hneither | hneither, _⟩
    · exact hpolling
    · simp [hhidden] at hneither
    · simp [htext] at hneither
  exact (start_polls (s := { stop s with
    target := target
    data := none
    dataSignature := none
    unable := false
    loaded := false
    initialLoading := true
    refreshing := false }) hhidden htext hpolling).1

/-- **The data answer the current target**, and a new target is asked for at once, where no set function
changes the target under a poll. -/
theorem data_current {json : Json P R} {target : Target C K P} {s : State C K P R}
    (h : Leads json (Undisturbed json) (.init target) s) :
    DataCurrent s ∧ ∀ event, Undisturbed json s event → AskedAtOnce json s event :=
  ⟨(current_run h).data, fun _ hundisturbed => asked_at_once hundisturbed⟩

theorem leads_of_run {json : Json P R} {s s' : State C K P R} (events : List (Event C K P R))
    (h : events.foldlM (step json) s = some s') : Leads json (fun _ _ => True) s s' := by
  induction events generalizing s with
  | nil =>
    cases h
    exact .refl
  | cons event events ih =>
    rw [List.foldlM_cons] at h
    obtain ⟨s1, hstep, hrest⟩ := Option.bind_eq_some_iff.1 h
    exact .head ⟨event, trivial, hstep⟩ (ih hrest)

/-- Strings without a character that JSON escapes. -/
def quoted : Json Str Str :=
  ⟨fun param => param.elim "null" fun text => '"' :: text ++ ['"'], fun text => some ('"' :: text ++ ['"'])⟩

/-- The jobs of a cluster. -/
def jobsOf (cluster : Str) : Target Str Str Str := ⟨cluster, "jobs", none⟩

theorem data_current_switch : ∃ s : State Str Str Str Str, s.target = jobsOf "b" ∧ s.polling = true ∧ DataCurrent s ∧
    ∀ event, Undisturbed quoted s event → AskedAtOnce quoted s event := by
  have h : Leads quoted (Undisturbed quoted) (.init (jobsOf "a")) (.init (jobsOf "a")) := .refl
  have h := h.tail ⟨.mount, nofun, rfl⟩
  have h := h.tail ⟨.settle (.response "[]"), nofun, rfl⟩
  have h := h.tail ⟨.deliver, nofun, rfl⟩
  have h := h.tail ⟨.resume .start, nofun, rfl⟩
  have h := h.tail ⟨.setCluster "b", fun _ _ _ => .inl rfl, rfl⟩
  exact ⟨_, rfl, rfl, data_current h⟩

/-- The cluster is set when the old one's response is there and not yet delivered: nobody asks for the
new cluster's data, and the old one's are shown under it. -/
theorem stale_data_delivered : ∃ s s' : State Str Str Str Str,
    Leads quoted (fun _ _ => True) (.init (jobsOf "a")) s ∧ ¬ AskedAtOnce quoted s (.setCluster "b") ∧
    Leads quoted (fun _ _ => True) (.init (jobsOf "a")) s' ∧ s'.target = jobsOf "b" ∧ ¬ DataCurrent s' := by
  refine ⟨_, _, leads_of_run [.mount, .settle (.response "[]")] rfl, ?_,
    leads_of_run [.mount, .settle (.response "[]"), .setCluster "b", .deliver] rfl, rfl, ?_⟩
  · intro hasked
    have hrequests := hasked _ rfl (by decide) rfl rfl
    revert hrequests
    decide
  · intro hcurrent
    have htarget := hcurrent _ rfl
    revert htarget
    decide

/-! ## After the unmount -/

/-- What is still to come once the component is gone. -/
def Outstanding (_ : State C K P R) : Event C K P R → Prop
  | .expire _ | .settle _ | .deliver | .resume _ => True
  | _ => False

/-- Nothing is asked for and no timer armed from here on. -/
def Quiet (json : Json P R) (s : State C K P R) : Prop :=
  ∀ s', Leads json Outstanding s s' → s'.requests = s.requests ∧ s'.armed = s.armed

/-- The poller is stopped, and no timer can start it again. -/
def Dead (s : State C K P R) : Prop := s.stopped = true ∧ (s.hidden = true ∨ s.timers = [])

theorem dead_deliver {json : Json P R} {s : State C K P R} (h : Dead s) {p : Poll C K P R} {outcome : Outcome R} :
    Dead (deliver json p outcome s) ∧ (deliver json p outcome s).requests = s.requests ∧
      (deliver json p outcome s).armed = s.armed := by
  cases outcome with
  | response value =>
    simp only [deliver, assignDataIfChanged]
    split <;> exact ⟨h, rfl, rfl⟩
  | failure error =>
    cases error with
    | permission =>
      refine ⟨⟨rfl, h.2.imp_right fun htimers => ?_⟩, rfl, rfl⟩
      simp [deliver, stop, abort, clearTimeout, htimers]
    | _ => exact ⟨h, rfl, rfl⟩

theorem dead_step {json : Json P R} {s s' : State C K P R} {event : Event C K P R} (h : Dead s)
    (houtstanding : Outstanding s event) (hstep : step json s event = some s') :
    Dead s' ∧ s'.requests = s.requests ∧ s'.armed = s.armed := by
  obtain ⟨hstopped, hnever⟩ := h
  cases event with
  | expire timer =>
    simp only [step, Option.ite_none_right_eq_some, Option.some.injEq] at hstep
    obtain ⟨htimer, rfl⟩ := hstep
    have hhidden : s.hidden = true := hnever.resolve_right (List.ne_nil_of_mem htimer)
    simp [start, clearTimeout, hhidden, Dead]
  | settle outcome =>
    simp only [step] at hstep
    split at hstep
    · cases hstep
      exact ⟨⟨hstopped, hnever⟩, rfl, rfl⟩
    · cases hstep
  | deliver =>
    simp only [step] at hstep
    split at hstep
    · cases hstep
      exact dead_deliver ⟨hstopped, hnever⟩
    · cases hstep
  | resume caller =>
    simp only [step, Option.ite_none_right_eq_some, Option.some.injEq] at hstep
    obtain ⟨-, rfl⟩ := hstep
    cases caller <;> simp [resume, hstopped, Dead, hnever]
  | _ => cases houtstanding

theorem quiet_of_dead {json : Json P R} {s : State C K P R} (h : Dead s) : Quiet json s := by
  intro s' hleads
  suffices Dead s' ∧ s'.requests = s.requests ∧ s'.armed = s.armed from this.2
  induction hleads with
  | refl => exact ⟨h, rfl, rfl⟩
  | tail _ hstep ih =>
    obtain ⟨event, houtstanding, hstep⟩ := hstep
    obtain ⟨hdead, hrequests, harmed⟩ := dead_step ih.1 houtstanding hstep
    exact ⟨hdead, hrequests.trans ih.2.1, harmed.trans ih.2.2⟩

theorem mem_unmount_timers {s : State C K P R} {t : Nat} : t ∈ (unmount s).timers ↔ t ∈ s.timers ∧
    s.timeout ≠ some t := by
  simp [unmount, stop, clearTimeout, abort]

/-- A timer that fires on a visible page asks for something or arms a timer. -/
theorem not_quiet_of_timer {json : Json P R} {s : State C K P R} (hhidden : s.hidden = false) {t : Nat}
    (ht : t ∈ s.timers) : ¬ Quiet json s := by
  intro hquiet
  have hfire : step json s (.expire t) = some (start { s with timers := s.timers.filter (· ≠ t) }) := if_pos ht
  have hfired := Relation.ReflTransGen.single (r := fun s s' => ∃ event, Outstanding s event ∧
    step json s event = some s') ⟨.expire t, trivial, hfire⟩
  by_cases htext : s.textInput = true
  · -- it does not poll, and arms the next timer
    have harmed := (hquiet _ hfired).2
    simp [start, clearTimeout, hhidden, htext, setTimeout] at harmed
  by_cases hpolling : s.polling = true
  · -- its poll returns, and `start` goes on to arm the next timer
    have hresume : step json (start { s with timers := s.timers.filter (· ≠ t) }) (.resume .start) = some (resume .start
        { start { s with timers := s.timers.filter (· ≠ t) } with
          returned := (start { s with timers := s.timers.filter (· ≠ t) }).returned.erase .start }) := by
      refine if_pos ?_
      simp [start, clearTimeout, hhidden, htext, poll, hpolling]
    have harmed := (hquiet _ (hfired.tail ⟨.resume .start, trivial, hresume⟩)).2
    simp [start, clearTimeout, hhidden, htext, poll, hpolling, resume, setTimeout] at harmed
  · have hrequests := (hquiet _ hfired).1
    simp [start, clearTimeout, hhidden, htext, poll, hpolling] at hrequests

/-- Every outstanding timer is the one whose handle is kept. -/
def Remembered (s : State C K P R) : Prop := ∀ t ∈ s.timers, s.timeout = some t

theorem quiet_of_remembered {json : Json P R} {s : State C K P R} (h : s.hidden = true ∨ Remembered s) :
    Quiet json (unmount s) := by
  refine quiet_of_dead ⟨rfl, h.imp_right fun hremembered => ?_⟩
  rw [List.eq_nil_iff_forall_not_mem]
  intro t ht
  obtain ⟨ht, hforgotten⟩ := mem_unmount_timers.1 ht
  exact hforgotten (hremembered t ht)

/-- **Dead with its component**, exactly: on a visible page no timer is outstanding but the remembered one. -/
theorem quiet_iff (json : Json P R) (s : State C K P R) :
    Quiet json (unmount s) ↔ s.hidden = true ∨ Remembered s := by
  refine ⟨fun hquiet => ?_, quiet_of_remembered⟩
  by_contra hnot
  unfold Remembered at hnot
  push Not at hnot
  obtain ⟨hhidden, t, ht, hforgotten⟩ := hnot
  have hvisible : (unmount s).hidden = false := Bool.eq_false_iff.2 hhidden
  exact not_quiet_of_timer hvisible (mem_unmount_timers.2 ⟨ht, hforgotten⟩) hquiet

/-- A `refresh` beside a `start` that polls: each arms a timer, the unmount clears the second, and the
first polls for nobody. -/
theorem orphan_timer_polls : ∃ s : State Str Str Str Str, Leads quoted (fun _ _ => True) (.init (jobsOf "a")) s ∧
    s.lifecycle = .mounted ∧ ¬ Quiet quoted (unmount s) := by
  refine ⟨_, leads_of_run [.mount, .refresh, .resume .refresh, .settle (.response "[]"), .deliver, .resume .start]
    rfl, rfl, ?_⟩
  intro hquiet
  have hrequests := (hquiet _ (.single ⟨.expire 0, trivial, rfl⟩)).1
  revert hrequests
  decide

/-! ### Runs without an orphan -/

/-- `start` and `refresh` arm a timer only where none is outstanding. -/
def OneAtATime (s : State C K P R) : Event C K P R → Prop
  | .resume _ => s.stopped = true ∨ s.timers = []
  | _ => True

section Remembers

variable {s s' : State C K P R}

theorem clearTimeout_timers (h : Remembered s) : (clearTimeout s).timers = [] := by
  rw [List.eq_nil_iff_forall_not_mem]
  intro t ht
  simp only [clearTimeout, List.mem_filter, decide_eq_true_eq] at ht
  exact ht.2 (h t ht.1)

theorem remembered_of_nil (h : s.timers = []) : Remembered s := by
  intro t ht
  simp [h] at ht

theorem remembered_setTimeout (h : s.timers = []) : Remembered (setTimeout s) := by
  intro t ht
  simp only [setTimeout, h, List.mem_singleton] at ht
  rw [ht]
  rfl

theorem poll_timers (caller : Caller) : (poll caller s).timers = s.timers := by
  unfold poll
  split <;> rfl

theorem remembered_stop (h : Remembered s) : Remembered (stop s) := by
  apply remembered_of_nil
  exact clearTimeout_timers (s := { s with stopped := true }) h

theorem remembered_start (h : Remembered s) : Remembered (start s) := by
  have hnone := clearTimeout_timers h
  unfold start
  simp only
  split
  · exact remembered_of_nil hnone
  · split
    · exact remembered_setTimeout hnone
    · exact remembered_of_nil ((poll_timers _).trans hnone)

theorem remembered_refresh (h : Remembered s) : Remembered (refresh s) :=
  remembered_of_nil ((poll_timers _).trans (clearTimeout_timers h))

theorem remembered_retarget (h : Remembered s) (target : Target C K P) : Remembered (retarget target s) := by
  apply remembered_start
  exact remembered_stop h

theorem remembered_resume (h : Remembered s) (hone : s.stopped = true ∨ s.timers = []) (caller : Caller) :
    Remembered (resume caller s) := by
  rcases hone with hstopped | hnone
  · cases caller <;> simpa [resume, hstopped] using h
  · cases caller <;> simp only [resume] <;> split <;> first | exact h | exact remembered_setTimeout hnone

theorem remembered_deliver {json : Json P R} (h : Remembered s) (p : Poll C K P R) (outcome : Outcome R) :
    Remembered (deliver json p outcome s) := by
  cases outcome with
  | response value =>
    simp only [deliver, assignDataIfChanged]
    split <;> exact h
  | failure error =>
    cases error with
    | permission => exact remembered_stop h
    | _ => exact h

theorem remembered_step {json : Json P R} {event : Event C K P R} (h : Remembered s) (hone : OneAtATime s event)
    (hstep : step json s event = some s') : Remembered s' := by
  refine step_rule hstep h (fun _ _ _ _ h => h) ?_ (fun _ => remembered_start) (fun _ => remembered_stop)
    (fun _ => remembered_refresh) (fun target _ => remembered_retarget h target) (fun _ _ _ _ => h)
    (fun p outcome _ _ => remembered_deliver h p outcome) ?_
  · intro s timer h t ht
    exact h t (List.mem_of_mem_filter ht)
  · rintro caller rfl
    apply remembered_resume
    · exact h
    · exact hone

end Remembers

/-- Where timers are armed one at a time, the unmount ends all. -/
theorem quiet_of_oneAtATime {json : Json P R} {target : Target C K P} {s : State C K P R}
    (h : Leads json OneAtATime (.init target) s) : Quiet json (unmount s) := by
  have hremembered : Remembered s := by
    induction h with
    | refl => exact nofun
    | tail _ hstep ih =>
      obtain ⟨event, hone, hstep⟩ := hstep
      exact remembered_step ih hone hstep
  exact quiet_of_remembered (.inr hremembered)

end SlurmWeb.DataPoller
