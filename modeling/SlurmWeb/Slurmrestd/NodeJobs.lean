import SlurmWeb.Slurmrestd.Jobs
import SlurmWeb.Jobs.Writer

/-!
# Jobs of a node (slurmweb/slurmrestd/__init__.py :586)

A node's page lists the jobs on the node that are not terminated; the history writes down which states are
terminal. The page knows three of the nine.

| here | there |
| --- | --- |
| `Client.jobsByNode` | `jobs_by_node` (:586), in Jobs.lean |
| `endStates` | the states of `terminated` (:596) |
| `Jobs.terminalStates`, `Jobs.terminalState` | `TERMINAL_STATES`, `_active_records` (jobs_store.py :33, :1087) |

* `jobsByNode_eq` — the page as a filter of the job list.
* `node_jobs_active_iff` — when none of its jobs has ended.
* `cancelled_job_shown` — a cancelled job that the history records as ended.
-/

namespace SlurmWeb.Slurmrestd

open Strings Py Assistant Jobs

variable {F : Type} [Python F]

/-! ## Jobs and their states -/

def endStates : List Str := ["COMPLETED", "FAILED", "TIMEOUT"]

/-- The job is in one of the states. -/
def inStates (names : List Str) : Value F → Bool
  | .dict job => match Value.lookup job "job_state" with
    | some (.list states) => names.any fun name => states.any (·.isStr name)
    | _ => false
  | _ => false

/-- The node is one of the job's, `member` being the nodes expressions that contain it. -/
def onNodeOf (member : Str → Bool) : Value F → Bool
  | .dict job => match Value.lookup job "nodes" with
    | some (.str nodes) => nodes ≠ [] && member nodes
    | _ => false
  | _ => false

/-- The history would record the job among those that have ended. -/
def recordedEnded : Value F → Bool
  | .dict job => match stateStr (Value.get job "job_state") with
    | .ok jobState => terminalState jobState
    | .error _ => false
  | _ => false

/-- A job as slurmrestd lists it, its nodes expression read right. -/
inductive NodeJob (client : Client F) (member : Str → Bool) (node : Str) : Value F → Prop
  | mk (job : Arguments F) (nodes : Str) (states : List (Value F)) : Value.lookup job "nodes" = some (.str nodes) →
      Value.lookup job "job_state" = some (.list states) →
      (nodes ≠ [] → client.inNodeSet (.str nodes) node = .ok (member nodes)) → NodeJob client member node (.dict job)

/-! ## The page as a filter -/

omit [Python F] in
theorem terminated_eq {job : Arguments F} {states : List (Value F)}
    (h : Value.lookup job "job_state" = some (.list states)) :
    terminated job = .ok (inStates endStates (.dict job)) := by
  have hstate : jobState job = .ok (.list states) := by rw [jobState, h]; rfl
  have hin : inStates endStates (.dict job) = (states.any (·.isStr "COMPLETED") || (states.any (·.isStr "FAILED") ||
      (states.any (·.isStr "TIMEOUT") || false))) := by
    rw [inStates, h]
    rfl
  rw [terminated, hstate, hin]
  simp only [contains, Except.pure_eq_ok, Except.ok_bind, Bool.or_false]
  cases states.any (·.isStr "COMPLETED") <;> cases states.any (·.isStr "FAILED") <;> rfl

omit [Python F] in
theorem runsOn_eq {client : Client F} {member : Str → Bool} {node : Str} {job : Value F}
    (h : NodeJob client member node job) :
    client.runsOn node job = .ok (onNodeOf member job && !inStates endStates job) := by
  obtain ⟨job, nodes, states, hnodes, hstates, hset⟩ := h
  have hon : client.onNode node job = .ok (onNodeOf member (.dict job)) := by
    rw [Client.onNode, onNodeOf, hnodes]
    dsimp only
    cases nodes with
    | nil => rfl
    | cons c nodes => rw [if_neg (by simp [Value.isStr]), hset (by simp)]; simp
  rw [Client.runsOn, hon, terminated_eq hstates]
  cases onNodeOf member (.dict job) <;> rfl

theorem jobsByNode_eq {client : Client F} {cluster : Cluster F} {member : Str → Bool} {node : Str}
    {jobs : List (Value F)}
    (hjobs : client.jobs cluster none = .ok jobs) (hlisted : ∀ job ∈ jobs, NodeJob client member node job) :
    client.jobsByNode cluster node = .ok (jobs.filter fun job => onNodeOf member job && !inStates endStates job) := by
  rw [Client.jobsByNode, hjobs, Except.ok_bind, Client.selectOnNode,
    Except.filterE_eq_filter fun job hjob => runsOn_eq (hlisted job hjob)]
  rfl

/-! ## Jobs that have ended -/

/-- The page is the jobs on the node in no terminal state, and the history records none of them as ended. -/
def ActiveJobs (member : Str → Bool) (jobs shown : List (Value F)) : Prop :=
  shown = (jobs.filter fun job => onNodeOf member job && !inStates terminalStates job) ∧
    ∀ job ∈ shown, recordedEnded job = false

/-- The terminal states that `terminated` leaves out. -/
def otherStates : List Str := ["CANCELLED", "NODE_FAIL", "DEADLINE", "OUT_OF_MEMORY", "PREEMPTED", "BOOT_FAIL"]

/-- A job on the node that has ended is completed, failed or timed out. -/
def EndsKnown (member : Str → Bool) (jobs : List (Value F)) : Prop :=
  ∀ job ∈ jobs, onNodeOf member job = true → (inStates otherStates job || recordedEnded job) = true →
    inStates endStates job = true

omit [Python F] in
theorem inStates_terminal (job : Value F) :
    inStates terminalStates job = (inStates endStates job || inStates otherStates job) := by
  have hperm : terminalStates.Perm (endStates ++ otherStates) := by decide
  cases job with
  | dict job =>
    rw [inStates, inStates, inStates]
    split
    · rw [hperm.any_eq, List.any_append]
    · rfl
  | _ => rfl

/-- **The jobs shown on a node are the active ones** exactly when every ended job on it ended in one of the
three states that the client leaves out. -/
theorem node_jobs_active_iff {client : Client F} {cluster : Cluster F} {member : Str → Bool} {node : Str}
    {jobs : List (Value F)} (hjobs : client.jobs cluster none = .ok jobs)
    (hlisted : ∀ job ∈ jobs, NodeJob client member node job) :
    (∃ shown, client.jobsByNode cluster node = .ok shown ∧ ActiveJobs member jobs shown) ↔ EndsKnown member jobs := by
  rw [jobsByNode_eq hjobs hlisted]
  constructor
  · rintro ⟨shown, hshown, hexact, hrecorded⟩ job hjob hon hended
    cases hshown
    by_contra hnot
    have hend : inStates endStates job = false := Bool.eq_false_iff.2 hnot
    have hmem : job ∈ jobs.filter fun job => onNodeOf member job && !inStates endStates job :=
      List.mem_filter.2 ⟨hjob, by rw [hon, hend]; rfl⟩
    have hno := hrecorded job hmem
    rw [hexact] at hmem
    simp only [List.mem_filter, inStates_terminal, hon, Bool.true_and, Bool.not_eq_true', Bool.or_eq_false_iff] at hmem
    simp [hmem.2.2, hno] at hended
  · intro hknown
    refine ⟨_, rfl, List.filter_congr fun job hjob => ?_, fun job hjob => ?_⟩
    · -- a job in one of the other states is in one of the three, too
      have hends := hknown job hjob
      rw [inStates_terminal]
      cases hon : onNodeOf member job <;> cases hend : inStates endStates job <;> cases hother :
        inStates otherStates job <;>
        simp_all
    · obtain ⟨hjob, hshown⟩ := List.mem_filter.1 hjob
      have hends := hknown job hjob
      cases hended : recordedEnded job with
      | false => rfl
      | true => simp_all

/-! ## A cancelled job -/

/-- A job of the node `n1` in one state. -/
def jobOn1 (state : Str) : Value ℚ := .dict [("nodes", .str "n1"), ("job_state", .list [.str state])]

def clusterOf1 (jobs : List (Value ℚ)) : Cluster ℚ := ⟨fun _ => .ok jobs, none, none⟩

theorem jobOn1_listed (state : Str) : NodeJob asciiClient (· == "n1".toList) "n1" (jobOn1 state) :=
  .mk _ "n1" [.str state] rfl rfl fun _ => rfl

theorem node_jobs_active_iff_running : ∃ shown,
    asciiClient.jobsByNode (clusterOf1 [jobOn1 "RUNNING", jobOn1 "FAILED"]) "n1" = .ok shown ∧
      ActiveJobs (· == "n1".toList) [jobOn1 "RUNNING", jobOn1 "FAILED"] shown := by
  refine (node_jobs_active_iff rfl fun job hjob => ?_).2 fun job hjob => ?_
  · rcases List.mem_pair.1 hjob with rfl | rfl <;> exact jobOn1_listed _
  · rcases List.mem_pair.1 hjob with rfl | rfl <;> decide

theorem cancelled_job_shown : ¬ ∀ (client : Client ℚ) (cluster : Cluster ℚ) (member : Str → Bool) (node : Str)
    (jobs : List (Value ℚ)), client.jobs cluster none = .ok jobs → (∀ job ∈ jobs, NodeJob client member node job) →
      ∃ shown, client.jobsByNode cluster node = .ok shown ∧ ActiveJobs member jobs shown := by
  intro hall
  obtain ⟨shown, hshown, -, hrecorded⟩ := hall asciiClient (clusterOf1 [jobOn1 "CANCELLED"]) (· == "n1".toList) "n1"
    [jobOn1 "CANCELLED"] rfl fun job hjob => List.mem_singleton.1 hjob ▸ jobOn1_listed _
  have hcancelled : asciiClient.jobsByNode (clusterOf1 [jobOn1 "CANCELLED"]) "n1" = .ok [jobOn1 "CANCELLED"] := rfl
  rw [hcancelled] at hshown
  cases hshown
  have hended : recordedEnded (jobOn1 "CANCELLED") = true := by decide
  rw [hrecorded _ List.mem_cons_self] at hended
  cases hended

end SlurmWeb.Slurmrestd
