import SlurmWeb.Lib.Tokens
import SlurmWeb.Frontend.DataPoller

/-!
# The cluster data getter (frontend/src/composables/DataGetter.ts)

Any number of requests may be out at once, each with the token it was made with; what comes back to another token
is dropped.

| here | there |
| --- | --- |
| `get`, `deliver` | `get` (:95), up to its await and from it on |
| `setCallback`, `setCluster`, `setParam` | :130-150 |
| `setEnabled` | a change of `enabled` and its watcher (:155) |
| `step` | what may happen, and what the handlers do |

What a request passes on of its target depends on the callback and is left out. The data stand with the target they
answer, the flag with the target of the request that raised it, a report with the two targets of its moment.

* `Inv` — requests that still count are for the current target; a disabled getter has none.
* `getter_fresh` — in every run the data shown, the flag and the reports are of the current target.
-/

namespace SlurmWeb.DataGetter

open Tokens
open DataPoller (Target)

variable {C K P R : Type}

/-- What a request throws; `other` is no `Error`. -/
inductive Failure
  | authentication
  | permission
  | error
  | other
deriving DecidableEq

/-- How a request settles. -/
inductive Outcome (R : Type)
  | response (value : R)
  | failure (thrown : Failure)

structure Report (C K P : Type) where
  thrown : Failure
  requested : Target C K P
  current : Target C K P

structure State (C K P R : Type) where
  target : Target C K P
  data : Option (R × Target C K P)
  /-- `unable`: raised, by a request for this target -/
  unable : Option (Target C K P)
  loaded : Bool
  requestToken : Nat
  enabled : Bool
  outstanding : List (Ticket (Target C K P))
  reports : List (Report C K P)

/-- `useClusterDataGetter(cluster, initialCallback, initialOtherParam, enabled)` -/
def State.init (target : Target C K P) (enabled : Bool) : State C K P R :=
  ⟨target, none, none, false, 0, enabled, [], []⟩

/-! ## The handlers -/

/-- The data, the flag and `loaded` as a disabled getter has them. -/
def clear (s : State C K P R) : State C K P R := { s with data := none, unable := none, loaded := false }

/-- `get` up to its await (:95-119) -/
def get (s : State C K P R) : State C K P R :=
  if !s.enabled then clear s
  else { s with
    requestToken := s.requestToken + 1
    unable := none
    outstanding := s.outstanding ++ [⟨s.requestToken + 1, s.target⟩] }

/-- `reportAuthenticationError`, `reportPermissionError`, `runtime.reportError` -/
def report (thrown : Failure) (requested : Target C K P) (s : State C K P R) : State C K P R :=
  { s with reports := s.reports ++ [⟨thrown, requested, s.target⟩] }

/-- `get` from its await on (:112-127), for a request that has settled. -/
def deliver (request : Ticket (Target C K P)) (outcome : Outcome R) (s : State C K P R) : State C K P R :=
  if request.token ≠ s.requestToken then s
  else match outcome with
    | .response value => { s with data := some (value, request.content), loaded := true }
    | .failure .authentication => report .authentication request.content s
    | .failure .permission => { report .permission request.content s with unable := some request.content }
    | .failure .error => { report .error request.content s with unable := some request.content }
    | .failure .other => s

/-- `setCallback` (:130): the token is left to `get`. -/
def setCallback (newCallback : K) (s : State C K P R) : State C K P R :=
  get { s with target := { s.target with callback := newCallback }, loaded := false }

/-- `setCluster` (:136) -/
def setCluster (newCluster : C) (s : State C K P R) : State C K P R :=
  get { clear s with target := { s.target with cluster := newCluster }, requestToken := s.requestToken + 1 }

/-- `setParam` (:145) -/
def setParam (newOtherParam : P) (s : State C K P R) : State C K P R :=
  get { s with
    target := { s.target with otherParam := some newOtherParam }
    requestToken := s.requestToken + 1
    loaded := false }

/-- `enabled` changes, and the watcher runs (:155-167). -/
def setEnabled (isEnabled : Bool) (s : State C K P R) : State C K P R :=
  if isEnabled = s.enabled then s
  else
    let s := { s with enabled := isEnabled, requestToken := s.requestToken + 1 }
    if isEnabled then get s else clear s

inductive Event (C K P R : Type)
  | mount
  | setCallback (newCallback : K)
  | setCluster (newCluster : C)
  | setParam (newOtherParam : P)
  | setEnabled (isEnabled : Bool)
  /-- The request at this place among those outstanding settles. -/
  | settle (index : Nat) (outcome : Outcome R)

/-- One event; `none` where it cannot happen. -/
def step (s : State C K P R) : Event C K P R → Option (State C K P R)
  | .mount => some (get s)
  | .setCallback newCallback => some (setCallback newCallback s)
  | .setCluster newCluster => some (setCluster newCluster s)
  | .setParam newOtherParam => some (setParam newOtherParam s)
  | .setEnabled isEnabled => some (setEnabled isEnabled s)
  | .settle index outcome => s.outstanding[index]?.map fun request =>
      deliver request outcome { s with outstanding := s.outstanding.eraseIdx index }

/-- The state after events. -/
def run (s : State C K P R) (events : List (Event C K P R)) : Option (State C K P R) := events.foldlM step s

/-! ## What a run keeps -/

structure Inv (s : State C K P R) : Prop where
  outstanding : Guarded s.requestToken (fun target => s.enabled = true ∧ target = s.target) s.outstanding
  data : s.loaded = true → ∃ value, s.data = some (value, s.target)
  unable : ∀ target ∈ s.unable, target = s.target
  reports : ∀ entry ∈ s.reports, entry.requested = entry.current
  disabled : s.enabled = false → s.data = none ∧ s.loaded = false

theorem inv_init (target : Target C K P) (enabled : Bool) : Inv (State.init target enabled : State C K P R) :=
  ⟨guarded_nil, by simp [State.init], by simp [State.init], by simp [State.init], by simp [State.init]⟩

variable {s s' : State C K P R}

/-- `get` needs no more than that the requests of a disabled getter no longer count. -/
theorem inv_get (htickets : Guarded s.requestToken (fun _ => s.enabled = true) s.outstanding)
    (hdata : s.loaded = true → ∃ value, s.data = some (value, s.target))
    (hreports : ∀ entry ∈ s.reports, entry.requested = entry.current) : Inv (get s) := by
  cases henabled : s.enabled with
  | true =>
    have hget : get s = { s with
        requestToken := s.requestToken + 1
        unable := none
        outstanding := s.outstanding ++ [⟨s.requestToken + 1, s.target⟩] } := by
      rw [get, henabled]
      rfl
    rw [hget]
    refine ⟨(htickets.advance Nat.one_pos).issue ⟨henabled, rfl⟩, hdata, by simp, hreports, fun hdisabled => ?_⟩
    rw [henabled] at hdisabled
    cases hdisabled
  | false =>
    have hget : get s = clear s := by
      rw [get, henabled]
      rfl
    rw [hget]
    refine ⟨fun ticket hmem => ⟨(htickets ticket hmem).1, fun hvalid => ?_⟩, by simp [clear], by simp [clear], hreports,
      fun _ => ⟨rfl, rfl⟩⟩
    have htrue := htickets.valid hmem hvalid
    rw [henabled] at htrue
    cases htrue

theorem Inv.tickets (h : Inv s) : Guarded s.requestToken (fun _ => s.enabled = true) s.outstanding :=
  fun ticket hmem => ⟨(h.outstanding ticket hmem).1, fun hvalid => (h.outstanding.valid hmem hvalid).1⟩

theorem inv_setCallback (h : Inv s) (newCallback : K) : Inv (setCallback newCallback s) :=
  @inv_get _ _ _ _ { s with target := { s.target with callback := newCallback }, loaded := false }
    h.tickets (by simp) h.reports

theorem inv_setCluster (h : Inv s) (newCluster : C) : Inv (setCluster newCluster s) :=
  inv_get (h.tickets.advance Nat.one_pos) (by simp [clear]) h.reports

theorem inv_setParam (h : Inv s) (newOtherParam : P) : Inv (setParam newOtherParam s) :=
  inv_get (h.tickets.advance Nat.one_pos) (by simp) h.reports

theorem inv_setEnabled (h : Inv s) (isEnabled : Bool) : Inv (setEnabled isEnabled s) := by
  rw [setEnabled]
  split
  next => exact h
  next hne =>
    cases isEnabled with
    | true =>
      -- the getter was disabled: nothing is loaded
      have hloaded : s.loaded = false := (h.disabled (by simpa using Ne.symm hne)).2
      exact @inv_get _ _ _ _ { s with enabled := true, requestToken := s.requestToken + 1 }
        (h.tickets.advance Nat.one_pos) (by simp [hloaded]) h.reports
    | false =>
      exact ⟨h.outstanding.advance Nat.one_pos, by simp [clear], by simp [clear], h.reports, fun _ => ⟨rfl, rfl⟩⟩

theorem inv_report (h : Inv s) (thrown : Failure) : Inv (report thrown s.target s) := by
  refine ⟨h.outstanding, h.data, h.unable, fun entry hentry => ?_, h.disabled⟩
  rcases List.mem_append.1 hentry with hentry | hentry
  · exact h.reports entry hentry
  · obtain rfl := List.mem_singleton.1 hentry
    rfl

theorem inv_raise (h : Inv s) : Inv { s with unable := some s.target } :=
  ⟨h.outstanding, h.data, by simp, h.reports, h.disabled⟩

/-- A request that has settled: it is of the current target, or dropped. -/
theorem inv_deliver (h : Inv s) {request : Ticket (Target C K P)}
    (hright : request.token = s.requestToken → s.enabled = true ∧ request.content = s.target) (outcome : Outcome R) :
    Inv (deliver request outcome s) := by
  unfold deliver
  split
  next => exact h
  next hvalid =>
    obtain ⟨henabled, htarget⟩ := hright (not_not.1 hvalid)
    rw [htarget]
    cases outcome with
    | response value =>
      refine ⟨h.outstanding, fun _ => ⟨value, rfl⟩, h.unable, h.reports, fun hdisabled => ?_⟩
      rw [henabled] at hdisabled
      cases hdisabled
    | failure thrown =>
      cases thrown with
      | authentication => exact inv_report h .authentication
      | permission => exact inv_raise (inv_report h .permission)
      | error => exact inv_raise (inv_report h .error)
      | other => exact h

theorem inv_step {event : Event C K P R} (h : Inv s) (hstep : step s event = some s') : Inv s' := by
  cases event with
  | mount =>
    cases hstep
    exact inv_get h.tickets h.data h.reports
  | setCallback newCallback =>
    cases hstep
    exact inv_setCallback h newCallback
  | setCluster newCluster =>
    cases hstep
    exact inv_setCluster h newCluster
  | setParam newOtherParam =>
    cases hstep
    exact inv_setParam h newOtherParam
  | setEnabled isEnabled =>
    cases hstep
    exact inv_setEnabled h isEnabled
  | settle index outcome =>
    obtain ⟨request, hrequest, rfl⟩ := Option.map_eq_some_iff.1 hstep
    have hmem : request ∈ s.outstanding := List.mem_of_getElem? hrequest
    have hforget : Inv { s with outstanding := s.outstanding.eraseIdx index } :=
      ⟨h.outstanding.forget index, h.data, h.unable, h.reports, h.disabled⟩
    exact inv_deliver hforget (h.outstanding.valid hmem) outcome

theorem inv_run : ∀ {events : List (Event C K P R)} {s : State C K P R}, Inv s → run s events = some s' → Inv s'
  | [], _, h, hrun => by
    cases hrun
    exact h
  | event :: events, s, h, hrun => by
    rw [run, List.foldlM_cons] at hrun
    obtain ⟨next, hstep, hrest⟩ := Option.bind_eq_some_iff.1 hrun
    exact inv_run (inv_step h hstep) hrest

/-- What the getter shows and reports is of the current target, and a disabled one shows nothing. -/
structure Fresh (s : State C K P R) : Prop where
  data : s.loaded = true → ∃ value, s.data = some (value, s.target)
  reports : ∀ entry ∈ s.reports, entry.requested = entry.current
  unable : ∀ target ∈ s.unable, target = s.target
  disabled : s.enabled = false → s.data = none ∧ s.loaded = false

/-- **The data shown is of the target**, in every run: answers of an earlier target are dropped. -/
theorem getter_fresh {target : Target C K P} {enabled : Bool} {events : List (Event C K P R)} {s : State C K P R}
    (h : run (State.init target enabled) events = some s) : Fresh s := by
  have hinv := inv_run (inv_init target enabled) h
  exact ⟨hinv.data, hinv.reports, hinv.unable, hinv.disabled⟩

/-- Two clusters, the answer of the first after that of the second. -/
def lateAnswer : List (Event Nat Nat Nat Nat) :=
  [.mount, .setCluster 2, .settle 1 (.response 20), .settle 0 (.response 10)]

theorem getter_fresh_lateAnswer : Fresh
    (⟨⟨2, 0, none⟩, some (20, ⟨2, 0, none⟩), none, true, 3, true, [], []⟩ : State Nat Nat Nat Nat) :=
  @getter_fresh _ _ _ _ ⟨1, 0, none⟩ true lateAnswer _ rfl

end SlurmWeb.DataGetter
