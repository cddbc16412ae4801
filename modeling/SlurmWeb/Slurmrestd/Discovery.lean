import SlurmWeb.Lib.PyValue

/-!
# Version discovery (slurmweb/slurmrestd/__init__.py)

`discover` pings slurmrestd in one version after another, and keeps what the first usable answer says.

| here | there |
| --- | --- |
| `validateResponse`, `executeRequest` | `_validate_response` (:71), `_execute_request` (:106) |
| `slurmMeta`, `tryVersion` | the `try` block of the loop (:519-537) |
| `caught` | its `except` clauses (:538-555) |
| `discoverLoop`, `discover` | `discover` (:505) |
| `currentClusterName` | `_current_cluster_name` (:231) |

The cluster is stored before the release is read: an answer without a release is passed over, its cluster kept.

* `discoverLoop_eq` — the loop in closed form.
* `discover_atomic_iff` — when a call changes all three fields or none, over runs of such calls.
* `unreleased_cluster_kept` — the cluster of an answer that was passed over.
-/

namespace SlurmWeb.Slurmrestd

open Strings Py

variable {F : Type} [Python F]

/-! ## Requests -/

inductive Failure
  | connection
  | authentication
  | notFound
  | invalidResponse
  | internal
  | python (err : Py.Error)

/-- What a ping meets; `json` is the outcome of `response.json()`. -/
inductive Reply (F : Type)
  | refused
  | raised (err : Failure)
  | response (statusCode : Nat) (contentType : Option Str) (text : Str) (json : Except Py.Error (Value F))

def python {α : Type} (x : Except Py.Error α) : Except Failure α := x.mapError .python

/-- `_validate_status` (:76) and `_validate_json` (:91) -/
def validateResponse (ignoreNotfound : Bool) (statusCode : Nat) (contentType : Option Str) (text : Str) :
    Except Failure Unit :=
  if statusCode = 401 ∨ (statusCode = 500 ∧ strip text = "Authentication does not apply to request".toList) then
    .error .authentication
  else if !ignoreNotfound ∧ statusCode = 404 then .error .notFound
  else if contentType ≠ some "application/json".toList then .error .invalidResponse
  else .ok ()

/-- `value[key]` for a text `key` -/
def subscript (key : Str) : Value F → Except Py.Error (Value F)
  | .dict items => match Value.lookup items key with
    | some value => .ok value
    | none => .error .keyError
  | _ => .error .typeError

/-- `len(value)` -/
def len : Value F → Except Py.Error Nat
  | .list items => .ok items.length
  | .dict items => .ok items.length
  | .str s => .ok s.length
  | _ => .error .typeError

/-- The error raised for `result["errors"]`, which is not empty (:148-154). -/
def reportedError : Value F → Failure
  | .list (.dict error :: _) =>
    if (Value.lookup error "description").isSome && (Value.lookup error "source").isSome then
      .internal else .python .keyError
  | .dict _ => .python .keyError
  | _ => .python .attributeError

/-- `_execute_request` (:106) on the reply. -/
def executeRequest (ignoreNotfound : Bool) : Reply F → Except Failure (Value F)
  | .refused => .error .connection
  | .raised err => .error err
  | .response statusCode contentType text json => do
    validateResponse ignoreNotfound statusCode contentType text
    let result ← python json
    let errors ← python (subscript "errors" result)
    if (← python (len errors)) ≠ 0 then throw (reportedError errors)
    match subscript "warnings" result with
    | .error _ => return result
    | .ok warnings => do
      let _ ← python (len warnings)
      return result

/-! ## Discovery -/

/-- The fields `discover` sets. -/
@[ext] structure Discovered (F : Type) where
  clusterName : Value F
  slurmVersion : Value F
  apiVersion : Option Str

/-- After `__init__` (:67-69). -/
def undiscovered : Discovered F := ⟨.none, .none, none⟩

/-- The versions of a call, each with the reply to its ping. -/
abbrev Pings (F : Type) := List (Str × Reply F)

def hintValue : Option Str → Value F
  | some hint => .str hint
  | none => .none

/-- `slurm_meta` (:520-525) -/
def slurmMeta (reply : Reply F) : Except Failure (List (Str × Value F)) := do
  let result ← executeRequest true reply
  match ← python (subscript "meta" result) with
  | .dict items => match (Value.get items "slurm").or (Value.get items "Slurm") with
    | .dict slurm => return slurm
    | _ => throw (.python .keyError)
  | _ => throw (.python .attributeError)

/-- `slurm_meta.get("cluster", self.cluster_name_hint or "unknown")` -/
def slurmCluster (hint : Option Str) (slurm : List (Str × Value F)) : Value F :=
  Value.getOr slurm "cluster" ((hintValue hint).or (.str "unknown"))

/-- `slurm_meta["release"]`, `none` for the `KeyError`. -/
def releaseOf (slurm : List (Str × Value F)) : Option (Value F) := Value.lookup slurm "release"

/-- The `try` block: `cluster_name` is assigned before `release` is looked up. -/
def tryVersion (hint : Option Str) (version : Str) (reply : Reply F) (s : Discovered F) :
    Except Failure Unit × Discovered F :=
  match slurmMeta reply with
  | .error err => (.error err, s)
  | .ok slurm =>
    let s := { s with clusterName := slurmCluster hint slurm }
    match releaseOf slurm with
    | none => (.error (.python .keyError), s)
    | some release => (.ok (), { s with slurmVersion := release, apiVersion := some version })

/-- The exceptions after which the next version is tried (:538, :544). -/
def caught : Failure → Bool
  | .notFound | .invalidResponse | .internal | .python .keyError | .python .valueError => true
  | _ => false

def discoverLoop (hint : Option Str) : Pings F → Discovered F → Except Failure (Discovered F) × Discovered F
  | [], s => (.error .connection, s)
  | (version, reply) :: pings, s =>
    match tryVersion hint version reply s with
    | (.ok (), s) => (.ok s, s)
    | (.error err, s) => if caught err then discoverLoop hint pings s else (.error err, s)

/-- All three are set (:510). -/
def Discovered.complete (s : Discovered F) : Bool := !s.clusterName.isNone &&
  !s.slurmVersion.isNone && s.apiVersion.isSome

/-- `discover` (:505): what it returns or raises, and the fields after it. -/
def discover (hint : Option Str) (pings : Pings F) (s : Discovered F) : Except Failure (Discovered F) × Discovered F :=
  if s.complete then (.ok s, s) else discoverLoop hint pings s

/-- `_current_cluster_name` (:231) -/
def currentClusterName (hint : Option Str) (pings : Pings F) (s : Discovered F) : Value F × Discovered F :=
  if s.clusterName.isNone then
    match discover hint pings s with
    | (.error _, s) => (hintValue hint, s)
    | (.ok _, s) => (s.clusterName.or (hintValue hint), s)
  else (s.clusterName.or (hintValue hint), s)

/-! ## What an answer says -/

/-- The metadata and the release of a valid answer. -/
def validAnswer (reply : Reply F) : Option (List (Str × Value F) × Value F) :=
  match slurmMeta reply with
  | .ok slurm => (releaseOf slurm).map (slurm, ·)
  | .error _ => none

/-- The metadata of an answer without a release. -/
def unreleased (reply : Reply F) : Option (List (Str × Value F)) :=
  match slurmMeta reply with
  | .ok slurm => if (releaseOf slurm).isNone then some slurm else none
  | .error _ => none

/-- The next version is tried after this answer. -/
def passedOver (reply : Reply F) : Bool :=
  match slurmMeta reply with
  | .ok slurm => (releaseOf slurm).isNone
  | .error err => caught err

/-- The fields after a valid answer. -/
def answered (hint : Option Str) (version : Str) (answer : List (Str × Value F) × Value F) : Discovered F :=
  ⟨slurmCluster hint answer.1, answer.2, some version⟩

/-- The answers passed over in a call. -/
def passed (pings : Pings F) : Pings F := pings.takeWhile fun ping => passedOver ping.2

/-- The cluster of the last answer without a release among those passed over. -/
def strayCluster (hint : Option Str) (pings : Pings F) : Option (Value F) :=
  ((passed pings).filterMap fun ping => unreleased ping.2).getLast?.map (slurmCluster hint)

/-- The fields after answers that were passed over. -/
def Discovered.stray (s : Discovered F) (cluster : Option (Value F)) : Discovered F :=
  { s with clusterName := cluster.getD s.clusterName }

omit [Python F] in
@[simp] theorem stray_none (s : Discovered F) : s.stray none = s := rfl

omit [Python F] in
theorem stray_eq_iff {s : Discovered F} {cluster : Option (Value F)} :
    s.stray cluster = s ↔ ∀ c ∈ cluster, c = s.clusterName := by
  cases cluster <;> simp [Discovered.stray, Discovered.ext_iff]

theorem tryVersion_passed {hint : Option Str} {version : Str} {reply : Reply F}
    (h : passedOver reply = true) (s : Discovered F) : ∃ err, caught err = true ∧
      tryVersion hint version reply s = (.error err, s.stray ((unreleased reply).map (slurmCluster hint))) := by
  cases hmeta : slurmMeta reply with
  | error err => exact ⟨err, by simpa [passedOver, hmeta] using h, by simp [tryVersion, unreleased, hmeta]⟩
  | ok slurm =>
    have hnone : releaseOf slurm = none := by simpa [passedOver, hmeta] using h
    exact ⟨.python .keyError, rfl, by simp [tryVersion, unreleased, hmeta, hnone, Discovered.stray]⟩

theorem tryVersion_stops {hint : Option Str} {version : Str} {reply : Reply F}
    (h : passedOver reply = false) (s : Discovered F) :
    (∃ answer, validAnswer reply = some answer ∧
      tryVersion hint version reply s = (.ok (), answered hint version answer)) ∨
      ∃ err, caught err = false ∧ validAnswer reply = none ∧ tryVersion hint version reply s = (.error err, s) := by
  cases hmeta : slurmMeta reply with
  | error err =>
    exact .inr ⟨err, by simpa [passedOver, hmeta] using h, by simp [validAnswer, hmeta], by simp [tryVersion, hmeta]⟩
  | ok slurm =>
    cases hrelease : releaseOf slurm with
    | none => simp [passedOver, hmeta, hrelease] at h
    | some release =>
      exact .inl
        ⟨(slurm, release), by simp [validAnswer, hmeta, hrelease], by simp [tryVersion, hmeta, hrelease, answered]⟩

/-! ## The loop -/

/-- The first answer that is not passed over. -/
def stop (pings : Pings F) : Option (Str × Reply F) := pings.find? fun ping => !passedOver ping.2

/-- The first answer that is not passed over is valid. -/
def Settled (pings : Pings F) : Prop := ∃ ping ∈ stop pings, (validAnswer ping.2).isSome

omit [Python F] in
theorem stray_stray (s : Discovered F) (a b : Option (Value F)) : (s.stray a).stray b = s.stray (b.or a) := by
  cases b <;> simp [Discovered.stray]

theorem strayCluster_cons {hint : Option Str} {ping : Str × Reply F} {pings : Pings F} (h : passedOver ping.2 = true) :
    strayCluster hint (ping :: pings) = (strayCluster hint pings).or ((unreleased ping.2).map (slurmCluster hint)) := by
  have hpassed : passed (ping :: pings) = ping :: passed pings := List.takeWhile_cons_of_pos h
  rw [strayCluster, hpassed, List.filterMap_cons]
  cases unreleased ping.2 with
  | none => simp [strayCluster]
  | some slurm =>
    rw [List.getLast?_cons, strayCluster]
    cases ((passed pings).filterMap fun ping => unreleased ping.2).getLast? <;> rfl

theorem strayCluster_stop {hint : Option Str} {ping : Str × Reply F} {pings : Pings F} (h : passedOver ping.2 = false) :
    strayCluster hint (ping :: pings) = none := by
  have hpassed : passed (ping :: pings) = [] := List.takeWhile_cons_of_neg (by simp [h])
  rw [strayCluster, hpassed]
  rfl

theorem discoverLoop_eq (hint : Option Str) : ∀ (pings : Pings F) (s : Discovered F),
    (∃ version reply answer, stop pings = some (version, reply) ∧ validAnswer reply = some answer ∧
      discoverLoop hint pings s = (.ok (answered hint version answer), answered hint version answer)) ∨
    ∃ err, ¬ Settled pings ∧ discoverLoop hint pings s = (.error err, s.stray (strayCluster hint pings))
  | [], s => .inr ⟨.connection, by simp [Settled, stop], rfl⟩
  | (version, reply) :: pings, s => by
    cases hpassed : passedOver reply with
    | true =>
      have hstop : stop ((version, reply) :: pings) = stop pings := List.find?_cons_of_neg (by simp [hpassed])
      obtain ⟨err, hcaught, htry⟩ := @tryVersion_passed F _ hint version reply hpassed s
      -- the loop goes on from the fields this answer left
      have hloop : discoverLoop hint ((version, reply) :: pings) s =
          discoverLoop hint pings (s.stray ((unreleased reply).map (slurmCluster hint))) := by
        rw [discoverLoop, htry]
        exact if_pos hcaught
      rw [Settled, hstop, hloop, strayCluster_cons hpassed, ← stray_stray]
      exact discoverLoop_eq hint pings _
    | false =>
      have hstop : stop ((version, reply) :: pings) = some (version, reply) :=
        List.find?_cons_of_pos (by simp [hpassed])
      rcases @tryVersion_stops F _ hint version reply hpassed s with ⟨answer, hvalid, htry⟩ | ⟨err,
          hcaught, hvalid, htry⟩
      · exact .inl ⟨version, reply, answer, hstop, hvalid, by rw [discoverLoop, htry]⟩
      · refine .inr ⟨err, by simp [Settled, hstop, hvalid], ?_⟩
        rw [strayCluster_stop hpassed, stray_none, discoverLoop, htry]
        exact if_neg (by simp [hcaught])

theorem discover_incomplete {s : Discovered F} (h : s.complete = false) (hint : Option Str) (pings : Pings F) :
    discover hint pings s = discoverLoop hint pings s := by
  rw [discover, h]
  rfl

theorem discover_complete {s : Discovered F} (h : s.complete = true) (hint : Option Str) (pings : Pings F) :
    discover hint pings s = (.ok s, s) := if_pos h

/-- `discover` raises where it pings and finds no valid answer. -/
theorem discover_raises_iff {hint : Option Str} {pings : Pings F} {s : Discovered F} :
    (∃ err s', discover hint pings s = (.error err, s')) ↔ s.complete = false ∧ ¬ Settled pings := by
  cases hcomplete : s.complete with
  | true => simp [discover_complete hcomplete]
  | false =>
    rw [discover_incomplete hcomplete]
    rcases discoverLoop_eq hint pings s with ⟨version, reply, answer, hstop, hvalid, hloop⟩ | ⟨err, hnot, hloop⟩
    · have : Settled pings := ⟨_, hstop, by simp [hvalid]⟩
      simp [hloop, this]
    · simp [hloop, hnot]

/-! ## Atomic calls -/

/-- The fields are those of the first valid answer of a call. -/
def FromFirst (hint : Option Str) (pings : Pings F) (s : Discovered F) : Prop :=
  ∃ before version reply after answer, pings = before ++ (version, reply) :: after ∧
    (∀ ping ∈ before, validAnswer ping.2 = none) ∧ validAnswer reply = some answer ∧ s = answered hint version answer

/-- What a call from `s` should do, after the calls of `history`. -/
structure Atomic (hint : Option Str) (history : List (Pings F)) (pings : Pings F) (s : Discovered F) : Prop where
  raised : ∀ err s', discover hint pings s = (.error err, s') → s' = s
  returned : ∀ r s', discover hint pings s = (.ok r, s') → r = s' ∧
    if s.complete then s' = s ∧ ∃ call ∈ history, FromFirst hint call s' else FromFirst hint pings s'
  /-- A failed discovery leaves `_current_cluster_name` on the hint. -/
  onHint : s.clusterName.isNone = true → ∀ err s', discover hint pings s = (.error err, s') →
    ∀ later err' s'', discover hint later s' = (.error err', s'') →
      (currentClusterName hint later s').1 = hintValue hint
  /-- A later discovery is as if the failed one had not been. -/
  afresh : ∀ err s', discover hint pings s = (.error err, s') → ∀ later, discover hint later s' = discover hint later s

/-- No cluster of an answer without a release is left in the fields, but the one they hold. -/
def Undisturbed (hint : Option Str) (pings : Pings F) (s : Discovered F) : Prop :=
  s.complete = true ∨ Settled pings ∨ ∀ cluster ∈ strayCluster hint pings, cluster = s.clusterName

/-- The calls made on a client, each allowed in the fields it finds. -/
inductive Calls (hint : Option Str) (versions : List Str) (allowed : Pings F → Discovered F → Prop) :
    List (Pings F) → Discovered F → Prop
  | start : Calls hint versions allowed [] undiscovered
  | call {history : List (Pings F)} {s : Discovered F} (pings : Pings F) : Calls hint versions allowed history s →
    pings.map (·.1) = versions → allowed pings s →
      Calls hint versions allowed (history ++ [pings]) (discover hint pings s).2

theorem stop_fromFirst {hint : Option Str} {pings : Pings F} {version : Str} {reply : Reply F}
    {answer : List (Str × Value F) × Value F} (hstop : stop pings = some (version, reply))
    (hvalid : validAnswer reply = some answer) : FromFirst hint pings (answered hint version answer) := by
  obtain ⟨-, before, after, rfl, hbefore⟩ := List.find?_eq_some_iff_append.1 hstop
  refine ⟨before, version, reply, after, answer, rfl, fun ping hping => ?_, hvalid, rfl⟩
  have hover : passedOver ping.2 = true := by simpa using hbefore ping hping
  cases hmeta : slurmMeta ping.2 with
  | error err => simp [validAnswer, hmeta]
  | ok slurm => simpa [passedOver, validAnswer, hmeta] using hover

theorem raised_iff {hint : Option Str} {pings : Pings F} {s : Discovered F} :
    (∀ err s', discover hint pings s = (.error err, s') → s' = s) ↔ Undisturbed hint pings s := by
  cases hcomplete : s.complete with
  | true => simp [discover_complete hcomplete, Undisturbed, hcomplete]
  | false =>
    rw [Undisturbed, hcomplete, discover_incomplete hcomplete]
    rcases discoverLoop_eq hint pings s with ⟨version, reply, answer, hstop, hvalid, hloop⟩ | ⟨err, hnot, hloop⟩
    · have : Settled pings := ⟨_, hstop, by simp [hvalid]⟩
      simp [hloop, this]
    · simp [hloop, hnot, stray_eq_iff]

theorem returned_first {hint : Option Str} {pings : Pings F} {s r s' : Discovered F} (hcomplete : s.complete = false)
    (h : discover hint pings s = (.ok r, s')) : r = s' ∧ FromFirst hint pings s' := by
  rw [discover_incomplete hcomplete] at h
  rcases discoverLoop_eq hint pings s with ⟨version, reply, answer, hstop, hvalid, hloop⟩ | ⟨err, -, hloop⟩
  · rw [hloop] at h
    cases h
    exact ⟨rfl, stop_fromFirst hstop hvalid⟩
  · rw [hloop] at h
    cases h

/-- The fields of a client are unset, or those of one answer. -/
theorem Calls.held {hint : Option Str} {versions : List Str} {history : List (Pings F)} {s : Discovered F}
    (h : Calls hint versions (Undisturbed hint) history s) : s = undiscovered ∨ ∃ call ∈ history,
      FromFirst hint call s := by
  induction h with
  | start => exact .inl rfl
  | @call history s pings _ _ hallowed ih =>
    have hkept : s = undiscovered ∨ ∃ call ∈ history ++ [pings], FromFirst hint call s :=
      ih.imp_right fun ⟨past, hpast, hfirst⟩ => ⟨past, List.mem_append_left _ hpast, hfirst⟩
    cases hresult : discover hint pings s with
    | mk result s' =>
      cases result with
      | error err =>
        have hsame : s' = s := raised_iff.2 hallowed err s' hresult
        rwa [hsame]
      | ok r =>
        cases hcomplete : s.complete with
        | true =>
          rw [discover_complete hcomplete] at hresult
          cases hresult
          exact hkept
        | false => exact .inr ⟨pings, by simp, (returned_first hcomplete hresult).2⟩

/-- **A discovery is all or nothing** exactly when the answers it passes over leave no cluster name behind but
the one that is held. -/
theorem discover_atomic_iff {hint : Option Str} {versions : List Str} {history : List (Pings F)} {s : Discovered F}
    (h : Calls hint versions (Undisturbed hint) history s) (pings : Pings F) :
    Atomic hint history pings s ↔ Undisturbed hint pings s := by
  refine ⟨fun hatomic => raised_iff.1 hatomic.raised, fun hundisturbed => ?_⟩
  have hraised := raised_iff.2 hundisturbed
  refine ⟨hraised, fun r s' hreturn => ?_, fun hnone err s' hraise later err' s'' hlater =>
    ?_, fun err s' hraise later => ?_⟩
  · cases hcomplete : s.complete with
    | true =>
      rw [discover_complete hcomplete] at hreturn
      cases hreturn
      rcases h.held with rfl | hheld
      · cases hcomplete
      · exact ⟨rfl, rfl, hheld⟩
    | false => exact returned_first hcomplete hreturn
  · obtain rfl := hraised err s' hraise
    rw [currentClusterName, if_pos hnone, hlater]
  · rw [hraised err s' hraise]

/-- An answer of slurmrestd with this metadata. -/
def pong (slurm : List (Str × Value ℚ)) : Reply ℚ :=
  .response 200 (some "application/json".toList) []
    (.ok (.dict [("meta", .dict [("slurm", .dict slurm)]), ("errors", .list [])]))

/-- The answers of two versions, the first without a release. -/
def twoPings : Pings ℚ :=
  [("0.0.44", pong [("cluster", .str "other")]),
    ("0.0.43", pong [("cluster", .str "atlas"), ("release", .str "25.05.1")])]

theorem twoPings_settled : Settled twoPings := ⟨_, rfl, rfl⟩

theorem discover_atomic_iff_twoPings :
    Atomic none [twoPings] [("0.0.44", .refused), ("0.0.43", .refused)] (discover none twoPings undiscovered).2 :=
  (discover_atomic_iff (@Calls.call ℚ _ none ["0.0.44", "0.0.43"] _ _ _ twoPings .start
    rfl (.inr (.inl twoPings_settled))) _).2 (.inl rfl)

theorem unreleased_cluster_kept : ¬ ∀ (hint : Option Str) (versions : List Str) (history : List (Pings ℚ))
    (s : Discovered ℚ), Calls hint versions (fun _ _ => True) history s → ∀ pings :
      Pings ℚ, Atomic hint history pings s := by
  intro hall
  have hatomic := hall (some "atlas") ["0.0.44"] [] undiscovered .start [("0.0.44", pong [("cluster", .str "other")])]
  have hsame := hatomic.raised _ _ rfl
  cases hsame

end SlurmWeb.Slurmrestd
