import SlurmWeb.Slurmrestd.Jobs
import SlurmWeb.Lib.Lists
import SlurmWeb.Lib.Dict

/-!
# Partition pressure, computed twice

The assistant's analysis (Python) and the analysis page (TypeScript) fill a table of partitions from
the nodes and the jobs and judge each partition by its pending and running CPU over its schedulable
CPU. The two classify the states of a node in their own ways.

| here | there |
| --- | --- |
| `nodeMainState`, `partitionPressureSummary` | `_node_main_state`, `_partition_pressure_summary` (views/agent.py:183, :195) |
| `getNodeMainState` | frontend/src/composables/GatewayAPI.ts:939 |
| `buildPartitionPressure` | frontend/src/composables/ClusterAnalysis.ts:173 |
| `ClusterJob`, `ClusterNode` | GatewayAPI.ts:562, :1005, the fields read here |

Counters are exact. `above n d p` is the test `n / d > p / 100` of both languages, whose quotients of
counters are the same doubles.

* `summary_eq` — on well-formed input the Python loops are the folds of the frontend, but for the
  classification.
* `pressure_agree_iff` — the two agree exactly when the nodes that only one of them counts as
  schedulable have the same CPUs, partition by partition.
-/

namespace SlurmWeb.Analysis

open Strings Py Assistant Slurmrestd

variable {F : Type} [Python F]

inductive PressureStatus
  | stable
  | hot
  | congested
deriving DecidableEq

/-- `AnalysisPartitionPressure` (ClusterAnalysis.ts:60), and the entries of the Python `dict`. -/
structure PartitionPressure where
  name : Str
  pendingJobs : Nat
  runningJobs : Nat
  pendingCpu : Nat
  runningCpu : Nat
  schedulableCpu : Nat
  totalCpu : Nat
  status : PressureStatus
deriving DecidableEq

/-- A new entry. -/
def PartitionPressure.fresh (name : Str) : PartitionPressure := ⟨name, 0, 0, 0, 0, 0, 0, .stable⟩

/-- An entry takes the CPUs of a node. -/
def PartitionPressure.addNode (cpus : Nat) (up : Bool) (e : PartitionPressure) : PartitionPressure :=
  { e with
    totalCpu := e.totalCpu + cpus
    schedulableCpu := if up then e.schedulableCpu + cpus else e.schedulableCpu }

/-- An entry takes a job. -/
def PartitionPressure.addJob (cpus : Nat) (pending running : Bool) (e : PartitionPressure) : PartitionPressure :=
  { e with
    pendingJobs := if pending then e.pendingJobs + 1 else e.pendingJobs
    pendingCpu := if pending then e.pendingCpu + cpus else e.pendingCpu
    runningJobs := if running then e.runningJobs + 1 else e.runningJobs
    runningCpu := if running then e.runningCpu + cpus else e.runningCpu }

/-- The entries by name. -/
abbrev Partitions : Type := Dict Str PartitionPressure

/-- `partitions.setdefault(name, ..)` and an update in place; in the frontend `has`, `set`, `get`. -/
def touch (partitions : Partitions) (name : Str) (update : PartitionPressure → PartitionPressure) : Partitions :=
  partitions.set name (update ((partitions.get name).getD (.fresh name)))

variable (above : Nat → Nat → Nat → Bool)

/-! ## The assistant's analysis -/

inductive NodeState
  | down
  | up
  | busy
  | unknown
deriving DecidableEq

/-- `_node_main_state` (:183); `upper` is `str.upper`. -/
def nodeMainState (upper : Str → Str) (state : Value F) : NodeState :=
  let values := match state with
    | .list values => values
    | state => [state]
  let normalized : List Str := (values.filter fun value => !value.isBlank).map fun value => upper value.toStr
  if ["DOWN".toList, "DRAIN", "DRAINED", "FAIL", "FAILING"].any fun flag => flag ∈ normalized then .down
  else if "IDLE".toList ∈ normalized then .up
  else if ["ALLOCATED".toList, "MIXED"].any fun flag => flag ∈ normalized then .busy
  else .unknown

/-- `_safe_int` (:113) with the default 0, for counters: negative numbers do not occur. -/
def safeInt (value : Value F) : Except Py.Error Nat :=
  if value.isBlank then return 0 else Int.toNat <$> Py.orElse value.toInt 0

/-- The loop over the partitions of a node (:198). -/
def countNodePartitions (cpus : Except Py.Error Nat) (up : Bool) : List (Value F) → Partitions →
    Except Py.Error Partitions
  | [], partitions => return partitions
  | .str name :: names, partitions => do
    countNodePartitions cpus up names (touch partitions name (.addNode (← cpus) up))
  | _ :: _, _ => .error .typeError

/-- The loop over the nodes (:197). -/
def countNodes (upper : Str → Str) : List (Value F) → Partitions → Except Py.Error Partitions
  | [], partitions => return partitions
  | .dict node :: nodes, partitions => do
    let names ← ((Value.get node "partitions").or (.list [])).iterate
    let up := decide (nodeMainState upper (Value.get node "state") = .up)
    countNodes upper nodes (← countNodePartitions (safeInt (Value.get node "cpus")) up names partitions)
  | _ :: _, _ => .error .attributeError

/-- The requested CPUs of a job (:234). -/
def jobCpus (job : Arguments F) : Except Py.Error Nat :=
  match Value.get job "cpus" with
  | .dict cpus =>
    if (Value.get cpus "set").truthy && !(Value.get cpus "infinite").truthy then safeInt (Value.get cpus "number")
    else return 0
  | _ => return 0

/-- `job.get("job_state") or []`, in a list (:231). -/
def jobStates (job : Arguments F) : Value F :=
  match (Value.get job "job_state").or (.list []) with
  | .str state => .list [.str state]
  | states => states

/-- `"RUNNING" in states or "COMPLETING" in states` -/
def runs (states : Value F) : Except Py.Error Bool := do
  if ← contains states "RUNNING" then return true else contains states "COMPLETING"

/-- The loop over the jobs (:216). -/
def countJobs : List (Value F) → Partitions → Except Py.Error Partitions
  | [], partitions => return partitions
  | .dict job :: jobs, partitions => do
    let name := ((Value.get job "partition").or (.str "unknown")).toStr
    let cpus ← jobCpus job
    let pending ← contains (jobStates job) "PENDING"
    let running ← runs (jobStates job)
    countJobs jobs (touch partitions name (.addJob cpus pending running))
  | _ :: _, _ => .error .attributeError

/-- The verdict on an entry (:246). -/
def judge (e : PartitionPressure) : PartitionPressure :=
  let pendingPressure := fun percent => e.schedulableCpu ≠ 0 ∧ above e.pendingCpu e.schedulableCpu percent
  let busyPressure := fun percent => e.schedulableCpu ≠ 0 ∧ above e.runningCpu e.schedulableCpu percent
  { e with
    status :=
      if e.pendingJobs > 0 ∧ (pendingPressure 40 ∨ e.pendingJobs > e.runningJobs) then .congested
      else if busyPressure 72 ∨ e.pendingJobs > 0 then .hot
      else .stable }

/-- The sort key (:257): pending CPU and pending jobs, largest first, then the name. -/
def pressureLe (a b : PartitionPressure) : Bool :=
  decide (b.pendingCpu < a.pendingCpu) || decide (a.pendingCpu = b.pendingCpu) &&
    (decide (b.pendingJobs < a.pendingJobs) || decide (a.pendingJobs = b.pendingJobs) && Strings.le a.name b.name)

/-- `_partition_pressure_summary` (:195) -/
def partitionPressureSummary (upper : Str → Str) (jobs nodes : List (Value F)) (limit : Nat) :
    Except Py.Error (List PartitionPressure) := do
  let partitions ← countNodes upper nodes ∅
  let partitions ← countJobs jobs partitions
  return ((partitions.values.map (judge above)).mergeSort pressureLe).take limit

/-! ## The analysis page -/

/-- `ClusterOptionalNumber` (GatewayAPI.ts:590) -/
structure ClusterOptionalNumber where
  infinite : Bool
  number : Nat
  set : Bool

structure ClusterJob where
  cpus : ClusterOptionalNumber
  jobState : List Str
  partition : Str

structure ClusterNode where
  cpus : Nat
  partitions : List Str
  state : List Str

/-- `ClusterNodeMainState` (GatewayAPI.ts:925) -/
inductive ClusterNodeMainState
  | down
  | error
  | drain
  | drained
  | draining
  | fail
  | failing
  | future
  | up
deriving DecidableEq

/-- `getNodeMainState` (GatewayAPI.ts:939) -/
def getNodeMainState (status : List Str) : ClusterNodeMainState :=
  if "DOWN".toList ∈ status then .down
  else if "ERROR".toList ∈ status then .error
  else if "FUTURE".toList ∈ status then .future
  else if "DRAIN".toList ∈ status then
    if "ALLOCATED".toList ∈ status ∨ "MIXED".toList ∈ status ∨ "COMPLETING".toList ∈ status then .draining
    else if "IDLE".toList ∈ status then .drained
    else .drain
  else if "FAIL".toList ∈ status then
    if "ALLOCATED".toList ∈ status ∨ "MIXED".toList ∈ status ∨ "COMPLETING".toList ∈ status then .failing
    else .fail
  else .up

/-- The loop over the nodes (:179), for a classification of nodes. -/
def nodeTable (up : ClusterNode → Bool) (nodes : List ClusterNode) (partitions : Partitions) : Partitions :=
  nodes.foldl (fun partitions node =>
    node.partitions.foldl (fun partitions name => touch partitions name (.addNode node.cpus (up node)))
      partitions) partitions

/-- The loop over the jobs (:201). -/
def jobTable (jobs : List ClusterJob) (partitions : Partitions) : Partitions :=
  jobs.foldl (fun partitions job =>
    let jobCpu := if job.cpus.set && !job.cpus.infinite then job.cpus.number else 0
    touch partitions job.partition (.addJob jobCpu (decide ("PENDING".toList ∈ job.jobState))
      (decide ("RUNNING".toList ∈ job.jobState) || decide ("COMPLETING".toList ∈ job.jobState)))) partitions

/-- The comparison (:240): pending CPU, then pending jobs, largest first. -/
def clusterLe (a b : PartitionPressure) : Bool :=
  decide (b.pendingCpu < a.pendingCpu) || decide (a.pendingCpu = b.pendingCpu) && decide (b.pendingJobs ≤ a.pendingJobs)

/-- The page counts the node as schedulable. -/
def pageUp (node : ClusterNode) : Bool := decide (getNodeMainState node.state = .up)

/-- `buildPartitionPressure` (ClusterAnalysis.ts:173); it judges (:225) as the assistant does. -/
def buildPartitionPressure (jobs : List ClusterJob) (nodes : List ClusterNode) : List PartitionPressure :=
  ((jobTable jobs (nodeTable pageUp nodes ∅)).values.map (judge above)).mergeSort clusterLe

/-! ## What both read -/

/-- The document of a node, with the fields the page's type promises. -/
inductive IsNode : Value F → ClusterNode → Prop
  | mk (items : Arguments F) (node : ClusterNode) : Value.get items "cpus" = .int node.cpus →
      Value.get items "partitions" = .list (node.partitions.map .str) →
      Value.get items "state" = .list (node.state.map .str) → IsNode (.dict items) node

/-- The document of a job, with the fields the page's type promises. -/
inductive IsJob : Value F → ClusterJob → Prop
  | mk (items cpus : Arguments F) (job : ClusterJob) : Value.get items "partition" = .str job.partition →
      Value.get items "job_state" = .list (job.jobState.map .str) → Value.get items "cpus" = .dict cpus →
      Value.get cpus "set" = .bool job.cpus.set → Value.get cpus "infinite" = .bool job.cpus.infinite →
      Value.get cpus "number" = .int job.cpus.number → IsJob (.dict items) job

/-- The assistant counts the node as schedulable. -/
def assistantUp (upper : Str → Str) (node : ClusterNode) : Bool :=
  decide (nodeMainState upper (.list (node.state.map (.str : Str → Value F))) = .up)

theorem safeInt_nat (n : Nat) : safeInt (.int n : Value F) = .ok n := rfl

theorem list_or (items : List (Value F)) : (Value.list items).or (.list []) = .list items := by
  cases items <;> rfl

omit [Python F] in
theorem countNodePartitions_eq {cpus : Nat} {up : Bool} : ∀ (names : List Str) (partitions : Partitions),
    countNodePartitions (.ok cpus) up (names.map (.str : Str → Value F)) partitions =
      .ok (names.foldl (fun partitions name => touch partitions name (.addNode cpus up)) partitions)
  | [], _ => rfl
  | name :: names, partitions => countNodePartitions_eq names (touch partitions name (.addNode cpus up))

theorem countNodes_eq (upper : Str → Str) {values : List (Value F)} {nodes : List ClusterNode}
    (h : List.Forall₂ IsNode values nodes) : ∀ partitions : Partitions,
      countNodes upper values partitions = .ok (nodeTable (assistantUp (F := F) upper) nodes partitions) := by
  induction h with
  | nil => exact fun _ => rfl
  | @cons value node values nodes hnode _ ih =>
    intro partitions
    obtain ⟨items, node, hcpus, hpartitions, hstate⟩ := hnode
    rw [countNodes, hpartitions, list_or, hcpus, hstate, safeInt_nat]
    rw [show (Value.list (node.partitions.map (.str : Str → Value F))).iterate =
      .ok (node.partitions.map .str) from rfl, Except.ok_bind]
    dsimp only
    rw [countNodePartitions_eq, Except.ok_bind, ih]
    rfl

omit [Python F] in
theorem contains_strs (flag : Str) (texts : List Str) :
    contains (.list (texts.map (.str : Str → Value F))) flag = .ok (decide (flag ∈ texts)) := by
  have h : (texts.map (.str : Str → Value F)).any (·.isStr flag) = decide (flag ∈ texts) := by
    induction texts with
    | nil => rfl
    | cons text texts ih =>
      rw [List.map_cons, List.any_cons, ih]
      by_cases ht : text = flag
      · simp [Value.isStr, ht]
      · simp [Value.isStr, ht, Ne.symm ht]
  rw [contains, h]
  rfl

omit [Python F] in
theorem runs_strs (texts : List Str) : runs (.list (texts.map (.str : Str → Value F))) =
    .ok (decide ("RUNNING".toList ∈ texts) || decide ("COMPLETING".toList ∈ texts)) := by
  rw [runs, contains_strs, Except.ok_bind, contains_strs]
  cases decide ("RUNNING".toList ∈ texts) <;> rfl

theorem jobCpus_eq {value : Value F} {job : ClusterJob} (h : IsJob value job) : ∀ items :
    Arguments F, value = .dict items →
    jobCpus items = .ok (if job.cpus.set && !job.cpus.infinite then job.cpus.number else 0) := by
  obtain ⟨items, cpus, job, -, -, hcpus, hset, hinfinite, hnumber⟩ := h
  rintro _ ⟨⟩
  rw [jobCpus, hcpus]
  dsimp only
  rw [hset, hinfinite, hnumber, safeInt_nat]
  show (if (job.cpus.set && !job.cpus.infinite) = true then _ else _) = _
  split <;> rfl

theorem countJobs_eq {values : List (Value F)} {jobs : List ClusterJob} (h : List.Forall₂ IsJob values jobs) :
    (∀ job ∈ jobs, job.partition ≠ []) → ∀ partitions : Partitions,
      countJobs values partitions = .ok (jobTable jobs partitions) := by
  induction h with
  | nil => exact fun _ _ => rfl
  | @cons value job values jobs hjob _ ih =>
    intro hnamed partitions
    have hcpus := jobCpus_eq hjob
    obtain ⟨items, cpus, job, hpartition, hstates, -, -, -, -⟩ := hjob
    have hname : ((Value.get items "partition").or (.str "unknown")).toStr = job.partition := by
      have htruthy : (Value.str job.partition : Value F).truthy = true := by
        simpa [Value.truthy] using hnamed job List.mem_cons_self
      rw [hpartition, Value.or, if_pos htruthy]
      rfl
    have hlist : jobStates items = .list (job.jobState.map .str) := by rw [jobStates, hstates, list_or]
    rw [countJobs, hname, hlist, hcpus items rfl, Except.ok_bind, contains_strs, Except.ok_bind,
      runs_strs, Except.ok_bind, ih fun job hjob => hnamed job (List.mem_cons_of_mem _ hjob)]
    rfl

/-- **The Python loops are the page's**, but for the classification of nodes. -/
theorem summary_eq (upper : Str → Str) {jobValues nodeValues : List (Value F)} {jobs : List ClusterJob}
    {nodes : List ClusterNode} (hjobs : List.Forall₂ IsJob jobValues jobs)
      (hnodes : List.Forall₂ IsNode nodeValues nodes)
    (hnamed : ∀ job ∈ jobs, job.partition ≠ []) (limit : Nat) :
    partitionPressureSummary above upper jobValues nodeValues limit =
      .ok ((((jobTable jobs (nodeTable (assistantUp (F := F) upper) nodes ∅)).values.map (judge above)).mergeSort
        pressureLe).take limit) := by
  rw [partitionPressureSummary, countNodes_eq upper hnodes, Except.ok_bind, countJobs_eq hjobs hnamed, Except.ok_bind]
  rfl

/-! ## Tables that differ in the classification -/

/-- An entry without its schedulable CPUs. -/
def PartitionPressure.bare (e : PartitionPressure) : PartitionPressure := { e with schedulableCpu := 0 }

/-- The schedulable CPUs of a partition, 0 where it has no entry. -/
def schedulable (partitions : Partitions) (name : Str) : Nat := ((partitions.get name).map (·.schedulableCpu)).getD 0

/-- Two tables with the same entries up to schedulable CPUs, each under its name. -/
structure SameBut (a b : Partitions) : Prop where
  bare : ∀ name, (a.get name).map PartitionPressure.bare = (b.get name).map PartitionPressure.bare
  named : ∀ name e, a.get name = some e → e.name = name

theorem sameBut_empty : SameBut ∅ ∅ := ⟨fun _ => rfl, fun name e h => by simp at h⟩

/-- An update that does not look at the schedulable CPUs. -/
def Blind (f g : PartitionPressure → PartitionPressure) : Prop :=
  (∀ d e, d.bare = e.bare → (f d).bare = (g e).bare) ∧ ∀ e, (f e).name = e.name

theorem blind_addNode (cpus : Nat) (up up' : Bool) : Blind (.addNode cpus up) (.addNode cpus up') := by
  refine ⟨fun d e h => ?_, fun e => rfl⟩
  simp only [PartitionPressure.bare, PartitionPressure.addNode, PartitionPressure.mk.injEq] at h ⊢
  obtain ⟨h1, h2, h3, h4, h5, h6, h7, h8⟩ := h
  exact ⟨h1, h2, h3, h4, h5, trivial, by rw [h7], h8⟩

theorem blind_addJob (cpus : Nat) (pending running : Bool) : Blind (.addJob cpus pending running)
    (.addJob cpus pending running) := by
  refine ⟨fun d e h => ?_, fun e => rfl⟩
  simp only [PartitionPressure.bare, PartitionPressure.addJob, PartitionPressure.mk.injEq] at h ⊢
  obtain ⟨h1, h2, h3, h4, h5, h6, h7, h8⟩ := h
  exact ⟨h1, by rw [h2], by rw [h3], by rw [h4], by rw [h5], trivial, h7, h8⟩

theorem SameBut.touch {a b : Partitions} (h : SameBut a b) {f g : PartitionPressure → PartitionPressure}
    (hfg : Blind f g) (name : Str) : SameBut (touch a name f) (touch b name g) := by
  constructor
  · intro other
    rw [Analysis.touch, Analysis.touch, Dict.get_set, Dict.get_set]
    split
    · rw [Option.map_some, Option.map_some]
      congr 1
      refine hfg.1 _ _ ?_
      have hbare := h.bare name
      cases ha : a.get name <;> cases hb : b.get name <;> simp_all
    · exact h.bare other
  · intro other e he
    rw [Analysis.touch, Dict.get_set] at he
    split at he
    next heq =>
      cases he
      rw [hfg.2, ← heq]
      cases ha : a.get name with
      | none => rfl
      | some e => exact h.named name e ha
    · exact h.named other e he

/-- The tables of two classifications. -/
theorem nodeTable_sameBut (up up' : ClusterNode → Bool) (nodes : List ClusterNode) : ∀ {a b : Partitions}, SameBut a b →
    SameBut (nodeTable up nodes a) (nodeTable up' nodes b) := by
  have hnode : ∀ (cpus : Nat) (v v' : Bool) (names : List Str) {a b : Partitions}, SameBut a b →
      SameBut (names.foldl (fun partitions name => touch partitions name (.addNode cpus v)) a)
        (names.foldl (fun partitions name => touch partitions name (.addNode cpus v')) b) := by
    intro cpus v v' names
    induction names with
    | nil => exact fun h => h
    | cons name names ih => exact fun h => ih (h.touch (blind_addNode cpus v v') name)
  induction nodes with
  | nil => exact fun h => h
  | cons node nodes ih => exact fun h => ih (hnode node.cpus (up node) (up' node) node.partitions h)

theorem jobTable_sameBut (jobs : List ClusterJob) : ∀ {a b : Partitions}, SameBut a b →
    SameBut (jobTable jobs a) (jobTable jobs b) := by
  induction jobs with
  | nil => exact fun h => h
  | cons job jobs ih => exact fun h => ih (h.touch (blind_addJob _ _ _) job.partition)

/-! ## Schedulable CPUs -/

/-- The CPUs a node brings to a partition, once for each time it names it. -/
def cpusIn (name : Str) (node : ClusterNode) : Nat := node.cpus * node.partitions.count name

/-- The CPUs that the selected nodes bring to a partition. -/
def cpusOf (selected : ClusterNode → Bool) (name : Str) (nodes : List ClusterNode) : Nat :=
  ((nodes.filter selected).map (cpusIn name)).sum

theorem schedulable_touch (partitions : Partitions) (key name : Str) (f : PartitionPressure → PartitionPressure) :
    schedulable (touch partitions key f) name =
      if key = name then (f ((partitions.get name).getD (.fresh name))).schedulableCpu else schedulable
        partitions name := by
  rw [schedulable, touch, Dict.get_set]
  split
  next h => rw [h]; rfl
  · rfl

theorem schedulable_getD (partitions : Partitions) (name : Str) :
    ((partitions.get name).getD (.fresh name)).schedulableCpu = schedulable partitions name := by
  rw [schedulable]
  cases partitions.get name <;> rfl

theorem schedulable_nodeTable (up : ClusterNode → Bool) (name : Str) (nodes : List ClusterNode) :
    ∀ partitions : Partitions,
    schedulable (nodeTable up nodes partitions) name = schedulable partitions name + cpusOf up name nodes := by
  have hnode : ∀ (cpus : Nat) (v : Bool) (names : List Str) (partitions : Partitions),
      schedulable (names.foldl (fun partitions name => touch partitions name (.addNode cpus v)) partitions) name =
        schedulable partitions name + if v then cpus * names.count name else 0 := by
    intro cpus v names
    induction names with
    | nil => intro partitions; cases v <;> simp
    | cons key names ih =>
      intro partitions
      rw [List.foldl_cons, ih, schedulable_touch, PartitionPressure.addNode, schedulable_getD, List.count_cons]
      by_cases hkey : key = name
      · cases v
        · simp
        · simp [hkey, Nat.mul_add]
          omega
      · simp [hkey]
  induction nodes with
  | nil => exact fun partitions => rfl
  | cons node nodes ih =>
    intro partitions
    have hstep := hnode node.cpus (up node) node.partitions partitions
    have hrest := ih (node.partitions.foldl (fun partitions name =>
      touch partitions name (.addNode node.cpus (up node))) partitions)
    rw [hstep] at hrest
    show schedulable (nodeTable up nodes _) name = _
    rw [hrest, cpusOf, cpusOf, List.filter_cons]
    cases up node
    · simp
    · simp [cpusIn]
      omega

theorem schedulable_jobTable (name : Str) (jobs : List ClusterJob) : ∀ partitions : Partitions,
    schedulable (jobTable jobs partitions) name = schedulable partitions name := by
  induction jobs with
  | nil => exact fun _ => rfl
  | cons job jobs ih =>
    intro partitions
    show schedulable (jobTable jobs (touch partitions job.partition _)) name = _
    rw [ih, schedulable_touch]
    split
    · exact schedulable_getD partitions name
    · rfl

/-- Two selections bring the same CPUs when what only one of them selects does. -/
theorem cpusOf_eq_iff (p q : ClusterNode → Bool) (name : Str) (nodes : List ClusterNode) :
    cpusOf p name nodes = cpusOf q name nodes ↔
      cpusOf (fun node => p node && !q node) name nodes = cpusOf (fun node => q node && !p node) name nodes := by
  have hsum : cpusOf p name nodes + cpusOf (fun node => q node && !p node) name nodes =
      cpusOf q name nodes + cpusOf (fun node => p node && !q node) name nodes := by
    unfold cpusOf
    induction nodes with
    | nil => rfl
    | cons node nodes ih =>
      simp only [List.filter_cons]
      cases p node <;> cases q node <;> simp <;> omega
  omega

/-! ## Agreement -/

/-- The entries of a table, judged. -/
def verdicts (partitions : Partitions) : List PartitionPressure := partitions.values.map (judge above)

theorem mem_verdicts {partitions : Partitions} (hnamed : ∀ name e, partitions.get name = some e → e.name = name)
    {v : PartitionPressure} : v ∈ verdicts above partitions ↔ ∃ e, partitions.get v.name = some e ∧
      judge above e = v := by
  rw [verdicts, List.mem_map]
  constructor
  · rintro ⟨e, he, rfl⟩
    obtain ⟨name, hname⟩ := Dict.mem_values_iff.1 he
    refine ⟨e, ?_, rfl⟩
    rw [show (judge above e).name = e.name from rfl, hnamed name e hname]
    exact hname
  · rintro ⟨e, he, rfl⟩
    exact ⟨e, Dict.mem_values_iff.2 ⟨_, he⟩, rfl⟩

theorem length_verdicts (partitions : Partitions) : (verdicts above partitions).length = partitions.keys.length := by
  rw [verdicts, Dict.values, Dict.keys, List.length_map, List.length_map, List.length_map]

theorem keys_perm {a b : Partitions} (h : SameBut a b) : a.keys.Perm b.keys := by
  refine (List.perm_ext_iff_of_nodup a.nodup b.nodup).2 fun name => ?_
  have hbare := h.bare name
  show name ∈ a.keys ↔ name ∈ b.keys
  rw [Dict.mem_keys_iff, Dict.mem_keys_iff]
  cases ha : a.get name <;> cases hb : b.get name <;> simp_all

theorem get_eq_of_bare {d e : Option PartitionPressure}
    (h : d.map PartitionPressure.bare = e.map PartitionPressure.bare)
    (hs : (d.map (·.schedulableCpu)).getD 0 = (e.map (·.schedulableCpu)).getD 0) : d = e := by
  cases d with
  | none => cases e <;> simp_all
  | some d =>
    cases e with
    | none => simp at h
    | some e =>
      simp only [Option.map_some, Option.some.injEq, PartitionPressure.bare, PartitionPressure.mk.injEq,
        Option.getD_some] at h hs
      obtain ⟨h1, h2, h3, h4, h5, -, h7, h8⟩ := h
      cases d
      cases e
      simp_all

/-- Two tables that differ in schedulable CPUs at most have the same verdicts when they do not. -/
theorem verdicts_perm_iff {a b : Partitions} (hab : SameBut a b) (hba : SameBut b a) :
    (verdicts above a).Perm (verdicts above b) ↔ ∀ name, schedulable a name = schedulable b name := by
  constructor
  · intro hperm name
    cases ha : a.get name with
    | none =>
      have hb : b.get name = none := by simpa [ha] using (hab.bare name).symm
      rw [schedulable, schedulable, ha, hb]
    | some e =>
      have hname := hab.named name e ha
      have hmem : judge above e ∈ verdicts above a :=
        (mem_verdicts above hab.named).2 ⟨e, by rw [show (judge above e).name = e.name from rfl, hname]; exact ha, rfl⟩
      obtain ⟨e', he', hjudge⟩ := (mem_verdicts above hba.named).1 (hperm.mem_iff.1 hmem)
      rw [show (judge above e).name = e.name from rfl, hname] at he'
      have hcpu : (judge above e').schedulableCpu = (judge above e).schedulableCpu := by rw [hjudge]
      rw [schedulable, schedulable, ha, he']
      exact hcpu.symm
  · intro hsched
    have hget : ∀ name, a.get name = b.get name := fun name => get_eq_of_bare (hab.bare name) (hsched name)
    have hentries : a.entries.Perm b.entries := by
      refine (List.perm_ext_iff_of_nodup a.nodup.of_map b.nodup.of_map).2 fun entry => ?_
      obtain ⟨name, e⟩ := entry
      rw [Dict.mem_entries_iff, Dict.mem_entries_iff, hget]
    exact (hentries.map Prod.snd).map (judge above)

/-- The assistant returns the page's entries, in some order. -/
def Agree (upper : Str → Str) (jobValues nodeValues : List (Value F)) (jobs : List ClusterJob)
    (nodes : List ClusterNode) : Prop :=
  ∀ limit, (buildPartitionPressure above jobs nodes).length ≤ limit →
    ∃ entries, partitionPressureSummary above upper jobValues nodeValues limit = .ok entries ∧
      entries.Perm (buildPartitionPressure above jobs nodes)

/-! ## The classifications in flags -/

/-- The flags `_node_main_state` looks at. -/
def readFlags (upper : Str → Str) (node : ClusterNode) : List Str := (node.state.filter (· ≠ [])).map upper

/-- The flags that take a node out of service for the assistant. -/
def assistantOut : List Str := ["DOWN", "DRAIN", "DRAINED", "FAIL", "FAILING"]

/-- The flags that take a node out of service for the page. -/
def pageOut : List Str := ["DOWN", "ERROR", "FUTURE", "DRAIN", "FAIL"]

theorem assistantUp_iff (upper : Str → Str) (node : ClusterNode) : assistantUp (F := F) upper node = true ↔
    "IDLE".toList ∈ readFlags upper node ∧ ∀ flag ∈ assistantOut, flag ∉ readFlags upper node := by
  have hflags : ((node.state.map (.str : Str → Value F)).filter fun value => !value.isBlank).map
      (fun value => upper value.toStr) = readFlags upper node := by
    rw [readFlags, List.filter_map, List.map_map]
    refine congrArg₂ List.map rfl (List.filter_congr fun flag _ => ?_)
    cases flag <;> rfl
  rw [assistantUp, decide_eq_true_eq, nodeMainState, hflags]
  by_cases hout : ["DOWN".toList, "DRAIN", "DRAINED", "FAIL", "FAILING"].any fun flag => flag ∈ readFlags upper node
  · rw [if_pos hout]
    obtain ⟨flag, hflag, hread⟩ := List.any_eq_true.1 hout
    exact ⟨nofun, fun h => absurd (of_decide_eq_true hread) (h.2 flag hflag)⟩
  · rw [if_neg hout]
    have hin : ∀ flag ∈ assistantOut, flag ∉ readFlags upper node := fun flag hflag hread =>
      hout (List.any_eq_true.2 ⟨flag, hflag, decide_eq_true hread⟩)
    by_cases hidle : "IDLE".toList ∈ readFlags upper node
    · simp only [if_pos hidle, true_iff]
      exact ⟨hidle, hin⟩
    · rw [if_neg hidle]
      refine ⟨fun h => ?_, fun h => absurd h.1 hidle⟩
      split at h <;> cases h

theorem pageUp_iff (node : ClusterNode) : pageUp node = true ↔ ∀ flag ∈ pageOut, flag ∉ node.state := by
  rw [pageUp, decide_eq_true_eq, getNodeMainState, pageOut]
  constructor
  · intro h
    split_ifs at h with hdown herror hfuture hdrain _ _ hfail
    exact List.forall_mem_cons.2 ⟨hdown, List.forall_mem_cons.2 ⟨herror, List.forall_mem_cons.2 ⟨hfuture,
      List.forall_mem_cons.2 ⟨hdrain, List.forall_mem_singleton.2 hfail⟩⟩⟩⟩
  · intro h
    simp only [List.forall_mem_cons] at h
    obtain ⟨hdown, herror, hfuture, hdrain, hfail, -⟩ := h
    rw [if_neg hdown, if_neg herror, if_neg hfuture, if_neg hdrain, if_neg hfail]

/-- Schedulable for the assistant only: idle, with a flag that only the page takes for out of service. -/
def assistantOnly (upper : Str → Str) (node : ClusterNode) : Bool :=
  decide ("IDLE".toList ∈ readFlags upper node) && (assistantOut.all fun flag => flag ∉ readFlags upper node) &&
    pageOut.any fun flag => flag ∈ node.state

/-- Schedulable for the page only: in service for the page, and not idle, or out of service for the assistant. -/
def pageOnly (upper : Str → Str) (node : ClusterNode) : Bool :=
  (pageOut.all fun flag => flag ∉ node.state) &&
    (!decide ("IDLE".toList ∈ readFlags upper node) || assistantOut.any fun flag => flag ∈ readFlags upper node)

theorem assistantOnly_eq (upper : Str → Str) (node : ClusterNode) :
    assistantOnly upper node = (assistantUp (F := F) upper node && !pageUp node) := by
  rw [Bool.eq_iff_iff, Bool.and_eq_true, Bool.not_eq_true', ← Bool.not_eq_true, assistantUp_iff, pageUp_iff]
  simp [assistantOnly]

theorem pageOnly_eq (upper : Str → Str) (node : ClusterNode) :
    pageOnly upper node = (pageUp node && !assistantUp (F := F) upper node) := by
  rw [Bool.eq_iff_iff, Bool.and_eq_true, Bool.not_eq_true', ← Bool.not_eq_true, assistantUp_iff, pageUp_iff]
  simp [pageOnly, imp_iff_not_or]

/-- **The assistant's analysis matches the page's** exactly when the nodes that only one of them counts
as schedulable have the same CPUs in each partition. -/
theorem pressure_agree_iff (upper : Str → Str) {jobValues nodeValues : List (Value F)} {jobs : List ClusterJob}
    {nodes : List ClusterNode} (hjobs : List.Forall₂ IsJob jobValues jobs)
      (hnodes : List.Forall₂ IsNode nodeValues nodes)
    (hnamed : ∀ job ∈ jobs, job.partition ≠ []) :
    Agree above upper jobValues nodeValues jobs nodes ↔
      ∀ name, cpusOf (assistantOnly upper) name nodes = cpusOf (pageOnly upper) name nodes := by
  let assistant : Partitions := jobTable jobs (nodeTable (assistantUp (F := F) upper) nodes ∅)
  let page : Partitions := jobTable jobs (nodeTable pageUp nodes ∅)
  have hab : SameBut assistant page := jobTable_sameBut jobs (nodeTable_sameBut _ _ nodes sameBut_empty)
  have hba : SameBut page assistant := jobTable_sameBut jobs (nodeTable_sameBut _ _ nodes sameBut_empty)
  have hperm : Agree above upper jobValues nodeValues jobs nodes ↔
      (verdicts above assistant).Perm (verdicts above page) := by
    have hpage : (buildPartitionPressure above jobs nodes).Perm (verdicts above page) := List.mergeSort_perm _ _
    have hassistant : ((verdicts above assistant).mergeSort pressureLe).Perm (verdicts above assistant) :=
      List.mergeSort_perm _ _
    have hlength : (verdicts above assistant).length = (verdicts above page).length := by
      rw [length_verdicts, length_verdicts, (keys_perm hab).length_eq]
    have htake : ∀ limit, (buildPartitionPressure above jobs nodes).length ≤ limit →
        ((verdicts above assistant).mergeSort pressureLe).take limit =
          (verdicts above assistant).mergeSort pressureLe := by
      intro limit hlimit
      refine List.take_of_length_le ?_
      rw [hassistant.length_eq, hlength, ← hpage.length_eq]
      exact hlimit
    constructor
    · intro hagree
      obtain ⟨entries, hentries, hsame⟩ := hagree _ le_rfl
      rw [summary_eq above upper hjobs hnodes hnamed] at hentries
      cases hentries
      rw [show jobTable jobs (nodeTable (assistantUp (F := F) upper) nodes ∅) = assistant from rfl] at hsame
      have := htake _ le_rfl
      rw [verdicts] at this
      rw [this] at hsame
      exact hassistant.symm.trans (hsame.trans hpage)
    · intro hsame limit hlimit
      refine ⟨_, summary_eq above upper hjobs hnodes hnamed limit, ?_⟩
      have := htake limit hlimit
      rw [verdicts] at this
      rw [this]
      exact hassistant.trans (hsame.trans hpage.symm)
  rw [hperm, verdicts_perm_iff above hab hba]
  refine forall_congr' fun name => ?_
  rw [schedulable_jobTable, schedulable_jobTable, schedulable_nodeTable, schedulable_nodeTable, Nat.add_right_inj,
    cpusOf_eq_iff, funext (assistantOnly_eq (F := F) upper), funext (pageOnly_eq (F := F) upper)]

/-- One idle node, one job on it. -/
def idleNode : ClusterNode := ⟨4, ["p"], ["IDLE"]⟩

def mixedNode : ClusterNode := ⟨4, ["p"], ["MIXED"]⟩

def runningJob : ClusterJob := ⟨⟨false, 2, true⟩, ["RUNNING"], "p"⟩

/-- The document of a node. -/
def nodeDocument (node : ClusterNode) : Value ℚ :=
  .dict [("cpus", .int node.cpus), ("partitions", .list (node.partitions.map .str)),
    ("state", .list (node.state.map .str))]

def jobDocument (job : ClusterJob) : Value ℚ :=
  .dict [("partition", .str job.partition), ("job_state", .list (job.jobState.map .str)),
    ("cpus", .dict [("set", .bool job.cpus.set), ("infinite", .bool job.cpus.infinite),
      ("number", .int job.cpus.number)])]

theorem nodeDocument_isNode (node : ClusterNode) : IsNode (nodeDocument node) node := .mk _ _ rfl rfl rfl

theorem jobDocument_isJob (job : ClusterJob) : IsJob (jobDocument job) job := .mk _ _ _ rfl rfl rfl rfl rfl rfl

/-- `n / d > p / 100`, in whole numbers. -/
def aboveNat (n d p : Nat) : Bool := decide (p * d < 100 * n)

/-- `str.upper` on ASCII. -/
def upperAscii (s : Str) : Str := s.map Char.toUpper

/-- Both count the idle node. -/
theorem pressure_agree_iff_idle :
    Agree aboveNat upperAscii [jobDocument runningJob] [nodeDocument idleNode] [runningJob] [idleNode] :=
  (pressure_agree_iff aboveNat upperAscii (.cons (jobDocument_isJob runningJob) .nil)
    (.cons (nodeDocument_isNode idleNode) .nil) (by decide)).2 fun name => rfl

/-- A node in use counts for the page only. -/
theorem mixed_node_missed : ¬ ∀ (upper : Str → Str) (jobValues nodeValues : List (Value ℚ)) (jobs : List ClusterJob)
    (nodes : List ClusterNode), List.Forall₂ IsJob jobValues jobs → List.Forall₂ IsNode nodeValues nodes →
      (∀ job ∈ jobs, job.partition ≠ []) → Agree aboveNat upper jobValues nodeValues jobs nodes := by
  intro h
  have hassistant : partitionPressureSummary aboveNat upperAscii [] [nodeDocument mixedNode] 1 =
      .ok [⟨"p", 0, 0, 0, 0, 0, 4, .stable⟩] := by
    show Except.ok ((List.mergeSort [_] pressureLe).take 1) = _
    rw [List.mergeSort_singleton]
    rfl
  have hpage : buildPartitionPressure aboveNat [] [mixedNode] = [⟨"p", 0, 0, 0, 0, 4, 4, .stable⟩] := by
    show List.mergeSort [_] clusterLe = _
    rw [List.mergeSort_singleton]
    rfl
  obtain ⟨entries, hentries, hperm⟩ := h upperAscii [] [nodeDocument mixedNode] [] [mixedNode] .nil
    (.cons (nodeDocument_isNode mixedNode) .nil) (by simp) 1 (by rw [hpage]; rfl)
  cases hassistant.symm.trans hentries
  rw [hpage] at hperm
  cases List.perm_singleton.1 hperm

end SlurmWeb.Analysis
