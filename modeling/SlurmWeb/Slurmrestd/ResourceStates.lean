import SlurmWeb.Slurmrestd.PartitionCounts
import SlurmWeb.Slurmrestd.Gres
import SlurmWeb.Lib.Counters

/-!
# Figures of the dashboard (slurmweb/slurmrestd/__init__.py)

The nodes of a partition counted by their state, with their cores, GPUs and memory, and the jobs by theirs.

| here | there |
| --- | --- |
| `Node` | the fields of a node that are read |
| `addNode`, `resourcesStates` | `resources_states` (:679), a node of the loop and the loop |
| `jobsStates` | `jobs_states` (:623), in PartitionCounts.lean |

Memory is in exact rationals.

* `addNode_conserved` — one node keeps the balance of all tables.
* `figures_conserved` — tables and totals over all nodes, and all jobs.
* `addNodes_ok`, `countStates_ok` — the loops return where GPUs and job states can be read.
-/

namespace SlurmWeb.Slurmrestd

open Strings Py Assistant

variable {F : Type} [Python F]

/-! ## Nodes -/

structure Node (F : Type) where
  /-- `node.get("partitions")` -/
  partitions : Value F
  cpus : Int
  gres : Str
  gresUsed : Str
  realMemory : Option Int
  allocMemory : Option Int
  state : List Str
  allocCpus : Int
  allocIdleCpus : Int

structure Resources where
  nodes : List (Str × Int)
  cores : List (Str × Int)
  gpus : List (Str × Int)
  memoryIdle : ℚ
  memoryAllocated : ℚ
  nodesTotal : Int
  coresTotal : Int
  gpusTotal : Int
  memoryTotal : ℚ

/-- The keys of the tables (:681). -/
def nodeStates : List Str := ["idle", "mixed", "allocated", "drain", "down", "error", "fail", "unknown"]

def zeros : List (Str × Int) := Counters.table nodeStates fun _ => 0

namespace Resources

def start : Resources := ⟨zeros, zeros, zeros, 0, 0, 0, 0, 0, 0⟩

/-- The node in one state with all it has. -/
def whole (r : Resources) (state : Str) (cores gpus : Int) : Resources :=
  { r with
    nodes := Counters.add state 1 r.nodes
    cores := Counters.add state cores r.cores
    gpus := Counters.add state gpus r.gpus }

end Resources

/-- The branches on the state of a node (:741). -/
def addState (node : Node F) (nodeGpus : Int) (r : Resources) : Except Py.Error Resources :=
  if "ERROR".toList ∈ node.state then return r.whole "error" node.cpus nodeGpus
  else if "FAIL".toList ∈ node.state then return r.whole "fail" node.cpus nodeGpus
  else if "MIXED".toList ∈ node.state then do
    let allocatedGpus ← nodeGresExtractGpus node.gresUsed
    return { r with
      nodes := Counters.add "mixed" 1 r.nodes
      cores := Counters.add "idle" node.allocIdleCpus (Counters.add "allocated" node.allocCpus r.cores)
      gpus := Counters.add "idle" (nodeGpus - allocatedGpus) (Counters.add "allocated" allocatedGpus r.gpus) }
  else if "ALLOCATED".toList ∈ node.state then do
    let allocatedGpus ← nodeGresExtractGpus node.gresUsed
    return { r with
      nodes := Counters.add "allocated" 1 r.nodes
      cores := Counters.add "allocated" node.cpus r.cores
      gpus := Counters.add "idle" (nodeGpus - allocatedGpus) (Counters.add "allocated" allocatedGpus r.gpus) }
  else if "DOWN".toList ∈ node.state then return r.whole "down" node.cpus nodeGpus
  else if "DRAIN".toList ∈ node.state then return r.whole "drain" node.cpus nodeGpus
  else if "IDLE".toList ∈ node.state then return r.whole "idle" node.cpus nodeGpus
  else return r.whole "unknown" node.cpus nodeGpus

/-- A node of the loop (:731). -/
def addNode (node : Node F) (r : Resources) : Except Py.Error Resources := do
  let nodeGpus ← nodeGresExtractGpus node.gres
  let realMemory := max 0 (node.realMemory.getD 0)
  let allocMemory := max 0 (min realMemory (node.allocMemory.getD 0))
  let idleMemory := max (realMemory - allocMemory) 0
  let r := { r with
    memoryIdle := r.memoryIdle + idleMemory / 1024
    memoryAllocated := r.memoryAllocated + allocMemory / 1024 }
  let r ← addState node nodeGpus r
  return { r with
    nodesTotal := r.nodesTotal + 1
    coresTotal := r.coresTotal + node.cpus
    gpusTotal := r.gpusTotal + nodeGpus
    memoryTotal := r.memoryTotal + realMemory / 1024 }

/-- The node is one of the partition, or there is no filter (:726). -/
def selected (partition : Option Str) (node : Node F) : Bool :=
  !(partition.any fun name => name ∉ partitionValues node.partitions)

/-- The loop of `resources_states` (:725). -/
def addNodes (partition : Option Str) : List (Node F) → Resources → Except Py.Error Resources
  | [], r => return r
  | node :: nodes, r =>
    if partition.any fun name => name ∉ partitionValues node.partitions then addNodes partition nodes r
    else do addNodes partition nodes (← addNode node r)

/-- `resources_states` (:679), of the nodes that the client has. -/
def resourcesStates (nodes : Except BackendError (List (Node F))) (partition : Option Str) :
    Except BackendError Resources := do
  pythonError (addNodes partition (← nodes) .start)

/-! ## Balance -/

/-- The state a node is counted in. -/
def stateOf (node : Node F) : Str :=
  if "ERROR".toList ∈ node.state then "error"
  else if "FAIL".toList ∈ node.state then "fail"
  else if "MIXED".toList ∈ node.state then "mixed"
  else if "ALLOCATED".toList ∈ node.state then "allocated"
  else if "DOWN".toList ∈ node.state then "down"
  else if "DRAIN".toList ∈ node.state then "drain"
  else if "IDLE".toList ∈ node.state then "idle"
  else "unknown"

/-- The cores of a mixed node are allocated or idle. -/
def CoresSplit (node : Node F) : Prop := "MIXED".toList ∈ node.state → node.allocCpus + node.allocIdleCpus = node.cpus

/-- The GPUs of a node can be read. -/
structure Readable (node : Node F) : Prop where
  gres : ∃ n, nodeGresExtractGpus node.gres = .ok n
  gresUsed : ∃ n, nodeGresExtractGpus node.gresUsed = .ok n

/-- Tables and totals balance. -/
structure Conserved (r : Resources) : Prop where
  nodes : Counters.total r.nodes = r.nodesTotal
  cores : Counters.total r.cores = r.coresTotal
  gpus : Counters.total r.gpus = r.gpusTotal
  memory : r.memoryIdle + r.memoryAllocated = r.memoryTotal
  idle_nonneg : 0 ≤ r.memoryIdle
  allocated_nonneg : 0 ≤ r.memoryAllocated

/-- The tables have the keys of the source. -/
structure Keyed (r : Resources) : Prop where
  nodes : r.nodes.map Prod.fst = nodeStates
  cores : r.cores.map Prod.fst = nodeStates
  gpus : r.gpus.map Prod.fst = nodeStates

theorem nodeStates_nodup : nodeStates.Nodup := by decide

theorem total_add_state {table : List (Str × Int)} (h : table.map Prod.fst = nodeStates) {state : Str}
    (hstate : state ∈ nodeStates) (n : Int) :
    Counters.total (Counters.add state n table) = Counters.total table + n :=
  Counters.total_add n (h ▸ nodeStates_nodup) (h ▸ hstate)

/-- What a node adds to the tables. -/
structure Added (node : Node F) (nodeGpus : Int) (r r' : Resources) : Prop where
  keyed : Keyed r'
  nodes : r'.nodes = Counters.add (stateOf node) 1 r.nodes
  cores : Counters.total r'.cores = Counters.total r.cores + node.cpus
  gpus : Counters.total r'.gpus = Counters.total r.gpus + nodeGpus
  memory : r'.memoryIdle = r.memoryIdle ∧ r'.memoryAllocated = r.memoryAllocated
  totals : r'.nodesTotal = r.nodesTotal ∧ r'.coresTotal = r.coresTotal ∧ r'.gpusTotal = r.gpusTotal ∧
    r'.memoryTotal = r.memoryTotal

omit [Python F] in
theorem added_whole {node : Node F} {nodeGpus : Int} {r : Resources} (h : Keyed r) {state : Str}
    (hstate : state ∈ nodeStates)
    (heq : stateOf node = state) : Added node nodeGpus r (r.whole state node.cpus nodeGpus) where
  keyed := ⟨(Counters.keys_add _ _ _).trans h.nodes, (Counters.keys_add _ _ _).trans h.cores,
    (Counters.keys_add _ _ _).trans h.gpus⟩
  nodes := by rw [heq]; rfl
  cores := total_add_state h.cores hstate _
  gpus := total_add_state h.gpus hstate _
  memory := ⟨rfl, rfl⟩
  totals := ⟨rfl, rfl, rfl, rfl⟩

/-- GPUs in use and not, put to two states. -/
theorem total_split {table : List (Str × Int)} (h : table.map Prod.fst = nodeStates) (allocated n : Int) :
    Counters.total (Counters.add "idle".toList (n - allocated) (Counters.add "allocated".toList allocated table)) =
      Counters.total table + n := by
  have hkeys : (Counters.add "allocated".toList allocated table).map Prod.fst = nodeStates :=
    (Counters.keys_add _ _ _).trans h
  rw [total_add_state hkeys (by decide), total_add_state h (by decide)]
  omega

omit [Python F] in
theorem addState_added {node : Node F} (hnode : CoresSplit node) {nodeGpus : Int} {r r' : Resources} (h : Keyed r)
    (hadd : addState node nodeGpus r = .ok r') : Added node nodeGpus r r' := by
  have hkeys : ∀ {a b : Str} {m n : Int} {table : List (Str × Int)}, table.map Prod.fst = nodeStates →
      (Counters.add a m (Counters.add b n table)).map Prod.fst = nodeStates :=
    fun htable => (Counters.keys_add _ _ _).trans ((Counters.keys_add _ _ _).trans htable)
  rw [addState] at hadd
  split_ifs at hadd with herror hfail hmixed hallocated hdown hdrain hidle
  · obtain rfl := Except.ok.inj hadd
    exact added_whole h (by decide) (by rw [stateOf, if_pos herror])
  · obtain rfl := Except.ok.inj hadd
    exact added_whole h (by decide) (by rw [stateOf, if_neg herror, if_pos hfail])
  · obtain ⟨allocatedGpus, -, hadd⟩ := Except.bind_eq_ok.1 hadd
    obtain rfl := Except.ok.inj hadd
    have hsplit : node.cpus - node.allocCpus = node.allocIdleCpus := by
      have := hnode hmixed
      omega
    refine ⟨⟨(Counters.keys_add _ _ _).trans h.nodes, hkeys h.cores, hkeys h.gpus⟩, ?_,
      hsplit ▸ total_split h.cores _ _, total_split h.gpus _ _, ⟨rfl, rfl⟩, ⟨rfl, rfl, rfl, rfl⟩⟩
    rw [stateOf, if_neg herror, if_neg hfail, if_pos hmixed]
  · obtain ⟨allocatedGpus, -, hadd⟩ := Except.bind_eq_ok.1 hadd
    obtain rfl := Except.ok.inj hadd
    refine ⟨⟨(Counters.keys_add _ _ _).trans h.nodes, (Counters.keys_add _ _ _).trans h.cores, hkeys h.gpus⟩, ?_,
      total_add_state h.cores (by decide) _, total_split h.gpus _ _, ⟨rfl, rfl⟩, ⟨rfl, rfl, rfl, rfl⟩⟩
    rw [stateOf, if_neg herror, if_neg hfail, if_neg hmixed, if_pos hallocated]
  · obtain rfl := Except.ok.inj hadd
    refine added_whole h (by decide) ?_
    rw [stateOf, if_neg herror, if_neg hfail, if_neg hmixed, if_neg hallocated, if_pos hdown]
  · obtain rfl := Except.ok.inj hadd
    refine added_whole h (by decide) ?_
    rw [stateOf, if_neg herror, if_neg hfail, if_neg hmixed, if_neg hallocated, if_neg hdown, if_pos hdrain]
  · obtain rfl := Except.ok.inj hadd
    refine added_whole h (by decide) ?_
    rw [stateOf, if_neg herror, if_neg hfail, if_neg hmixed, if_neg hallocated, if_neg hdown,
      if_neg hdrain, if_pos hidle]
  · obtain rfl := Except.ok.inj hadd
    refine added_whole h (by decide) ?_
    rw [stateOf, if_neg herror, if_neg hfail, if_neg hmixed, if_neg hallocated, if_neg hdown,
      if_neg hdrain, if_neg hidle]

omit [Python F] in
theorem stateOf_mem (node : Node F) : stateOf node ∈ nodeStates := by
  unfold stateOf
  split_ifs <;> decide

omit [Python F] in
/-- One node keeps the balance. -/
theorem addNode_conserved {node : Node F} (hnode : CoresSplit node) {r r' : Resources}
    (hkeys : Keyed r) (h : Conserved r) (hadd : addNode node r = .ok r') :
    Keyed r' ∧ Conserved r' ∧ r'.nodes = Counters.add (stateOf node) 1 r.nodes ∧ r'.nodesTotal = r.nodesTotal + 1 := by
  obtain ⟨nodeGpus, -, hadd⟩ := Except.bind_eq_ok.1 hadd
  obtain ⟨middle, hstate, hadd⟩ := Except.bind_eq_ok.1 hadd
  obtain rfl := Except.ok.inj hadd
  have hadded := addState_added hnode (by exact ⟨hkeys.nodes, hkeys.cores, hkeys.gpus⟩) hstate
  obtain ⟨hnodesTotal, hcoresTotal, hgpusTotal, hmemoryTotal⟩ := hadded.totals
  obtain ⟨hidle, hallocated⟩ := hadded.memory
  dsimp only at hnodesTotal hcoresTotal hgpusTotal hmemoryTotal hidle hallocated ⊢
  set realMemory := max 0 (node.realMemory.getD 0) with hreal
  set allocMemory := max 0 (min realMemory (node.allocMemory.getD 0)) with halloc
  set idleMemory := max (realMemory - allocMemory) 0 with hidleMemory
  -- the memory in use is clamped to the memory there is
  have hbalance : idleMemory + allocMemory = realMemory := by omega
  have hidle_nonneg : (0 : ℚ) ≤ idleMemory := by exact_mod_cast le_max_right _ _
  have halloc_nonneg : (0 : ℚ) ≤ allocMemory := by exact_mod_cast le_max_left _ _
  refine ⟨⟨hadded.keyed.nodes, hadded.keyed.cores, hadded.keyed.gpus⟩, ⟨?_, ?_, ?_, ?_, ?_, ?_⟩, hadded.nodes, ?_⟩
  · dsimp only
    rw [hadded.nodes, total_add_state hkeys.nodes (stateOf_mem node), hnodesTotal, h.nodes]
  · dsimp only
    rw [hadded.cores, hcoresTotal, h.cores]
  · dsimp only
    rw [hadded.gpus, hgpusTotal, h.gpus]
  · dsimp only
    rw [hidle, hallocated, hmemoryTotal, ← h.memory, ← hbalance]
    push_cast
    ring
  · dsimp only
    rw [hidle]
    exact add_nonneg h.idle_nonneg (div_nonneg hidle_nonneg (by norm_num))
  · dsimp only
    rw [hallocated]
    exact add_nonneg h.allocated_nonneg (div_nonneg halloc_nonneg (by norm_num))
  · rw [hnodesTotal]

/-! ## Totals -/

/-- Nodes, cores, GPUs and memory. -/
def Resources.totals (r : Resources) : Int × Int × Int × ℚ := (r.nodesTotal, r.coresTotal, r.gpusTotal, r.memoryTotal)

/-- What a node brings to the totals; memory below zero counts as none. -/
def nodeTotals (node : Node F) : Int × Int × Int × ℚ :=
  (1, node.cpus, (nodeGresExtractGpus node.gres).toOption.getD 0, (max 0 (node.realMemory.getD 0) : Int) / 1024)

omit [Python F] in
theorem addState_totals {node : Node F} {nodeGpus : Int} {r r' : Resources} (hadd : addState node nodeGpus r = .ok r') :
    r'.totals = r.totals := by
  rw [addState] at hadd
  split_ifs at hadd
  iterate 2
    · obtain rfl := Except.ok.inj hadd
      rfl
  iterate 2
    · obtain ⟨allocatedGpus, -, hadd⟩ := Except.bind_eq_ok.1 hadd
      obtain rfl := Except.ok.inj hadd
      rfl
  all_goals
    obtain rfl := Except.ok.inj hadd
    rfl

omit [Python F] in
theorem addNode_totals {node : Node F} {r r' : Resources} (hadd : addNode node r = .ok r') :
    r'.totals = r.totals + nodeTotals node := by
  obtain ⟨nodeGpus, hgpus, hadd⟩ := Except.bind_eq_ok.1 hadd
  obtain ⟨middle, hstate, hadd⟩ := Except.bind_eq_ok.1 hadd
  obtain rfl := Except.ok.inj hadd
  have htotals := addState_totals hstate
  simp only [Resources.totals, Prod.mk.injEq] at htotals
  obtain ⟨hnodes, hcores, hgpusTotal, hmemory⟩ := htotals
  simp only [Resources.totals, nodeTotals, hgpus, hnodes, hcores, hgpusTotal, hmemory]
  rfl

omit [Python F] in
theorem addNode_ok {node : Node F} (h : Readable node) (r : Resources) : ∃ r', addNode node r = .ok r' := by
  obtain ⟨nodeGpus, hgres⟩ := h.gres
  obtain ⟨allocatedGpus, hused⟩ := h.gresUsed
  have hstate : ∀ r : Resources, ∃ r', addState node nodeGpus r = .ok r' := by
    intro r
    rw [addState, hused]
    split_ifs <;> exact ⟨_, rfl⟩
  obtain ⟨r', hr'⟩ := hstate _
  rw [addNode, hgres, Except.ok_bind]
  dsimp only
  rw [hr']
  exact ⟨_, rfl⟩

omit [Python F] in
theorem start_conserved : Keyed .start ∧ Conserved .start := by
  have hkeys : zeros.map Prod.fst = nodeStates := by decide
  have htotal : Counters.total zeros = 0 := by decide
  exact ⟨⟨hkeys, hkeys, hkeys⟩, ⟨htotal, htotal, htotal, add_zero 0, le_rfl, le_rfl⟩⟩

theorem addNodes_cons (partition : Option Str) (node : Node F) (nodes : List (Node F)) (r : Resources) :
    addNodes partition (node :: nodes) r =
      if selected partition node = true then addNode node r >>=
        addNodes partition nodes else addNodes partition nodes r := by
  have hskip : (partition.any fun name => decide (name ∉ partitionValues node.partitions)) =
      !selected partition node := by
    rw [selected, Bool.not_not]
  rw [addNodes, hskip]
  cases selected partition node <;> rfl

/-- All nodes of the loop. -/
theorem addNodes_conserved (partition : Option Str) : ∀ {nodes : List (Node F)} {r r' : Resources},
    (∀ node ∈ nodes, CoresSplit node) → Keyed r → Conserved r → ∀ {f : Str → Int},
      r.nodes = Counters.table nodeStates f → addNodes partition nodes r = .ok r' →
        Conserved r' ∧
          r'.nodes = Counters.table nodeStates (fun state => f state +
            nodes.countP fun node => selected partition node && decide (stateOf node = state)) ∧
          r'.nodesTotal = r.nodesTotal + nodes.countP (selected partition)
  | [], r, r', _, _, h, f, hf, hrun => by
    obtain rfl := Except.ok.inj hrun
    exact ⟨h, by simpa using hf, by simp⟩
  | node :: nodes, r, r', hnodes, hkeys, h, f, hf, hrun => by
    obtain ⟨hnode, hrest⟩ := List.forall_mem_cons.1 hnodes
    rw [addNodes_cons] at hrun
    split at hrun
    next hselected =>
      obtain ⟨middle, hadd, hrun⟩ := Except.bind_eq_ok.1 hrun
      obtain ⟨hkeys', h', hstates, htotal'⟩ := addNode_conserved hnode hkeys h hadd
      rw [hf, Counters.add_eq] at hstates
      obtain ⟨hconserved, htable, htotal⟩ := addNodes_conserved partition hrest hkeys' h' hstates hrun
      refine ⟨hconserved, ?_, ?_⟩
      · rw [htable]
        congr 1
        funext state
        rw [List.countP_cons, hselected, Bool.true_and, add_assoc]
        by_cases hstate : stateOf node = state
        · rw [if_pos hstate.symm, if_pos (decide_eq_true hstate)]
          push_cast
          omega
        · rw [if_neg (Ne.symm hstate), if_neg (by simpa using hstate), zero_add, add_zero]
      · rw [htotal, htotal', List.countP_cons, if_pos hselected]
        push_cast
        omega
    next hselected =>
      obtain ⟨hconserved, htable, htotal⟩ := addNodes_conserved partition hrest hkeys h hf hrun
      refine ⟨hconserved, ?_, ?_⟩
      · rw [htable]
        congr 1
        funext state
        rw [List.countP_cons_of_neg (by simp [hselected])]
      · rw [htotal, List.countP_cons_of_neg hselected]

/-- The totals of the loop are those of the selected nodes. -/
theorem addNodes_totals (partition : Option Str) : ∀ {nodes : List (Node F)} {r r' : Resources},
    addNodes partition nodes r = .ok r' →
      r'.totals = r.totals + ((nodes.filter (selected partition)).map nodeTotals).sum
  | [], r, r', hrun => by
    obtain rfl := Except.ok.inj hrun
    exact (add_zero _).symm
  | node :: nodes, r, r', hrun => by
    rw [addNodes_cons] at hrun
    split at hrun
    next hselected =>
      obtain ⟨middle, hadd, hrun⟩ := Except.bind_eq_ok.1 hrun
      rw [addNodes_totals partition hrun, addNode_totals hadd, List.filter_cons_of_pos hselected, List.map_cons,
        List.sum_cons, add_assoc]
    next hselected => rw [addNodes_totals partition hrun, List.filter_cons_of_neg hselected]

theorem addNodes_ok (partition : Option Str) : ∀ {nodes : List (Node F)},
    (∀ node ∈ nodes, selected partition node = true → Readable node) → ∀ r : Resources,
      ∃ r', addNodes partition nodes r = .ok r'
  | [], _, r => ⟨r, rfl⟩
  | node :: nodes, h, r => by
    obtain ⟨hnode, hrest⟩ := List.forall_mem_cons.1 h
    rw [addNodes_cons]
    split
    next hselected =>
      obtain ⟨middle, hadd⟩ := addNode_ok (hnode hselected) r
      rw [hadd]
      exact addNodes_ok partition hrest middle
    next => exact addNodes_ok partition hrest r

/-! ## Jobs -/

/-- The job is one of the partition, or there is no filter. -/
def jobSelected (partition : Option Str) : Value F → Bool
  | .dict job => !(partition.any fun name => name ∉ partitionValues (Value.get job "partition"))
  | _ => false

omit [Python F] in
theorem firstState_key {jobState : Value F} {state : Str} : ∀ {table : List (Str × Str)},
    firstState jobState table = .ok state → state = "unknown".toList ∨ state ∈ table.map Prod.fst
  | [], h => .inl (Except.ok.inj h).symm
  | (name, upper) :: table, h => by
    obtain ⟨found, -, h⟩ := Except.bind_eq_ok.1 h
    cases found with
    | true => exact .inr (List.mem_cons.2 (.inl (Except.ok.inj h).symm))
    | false => exact (firstState_key h).imp_right (List.mem_cons_of_mem _)

theorem total_increment {state : Str} {counts : List (Str × Nat)}
    (hkeys : counts.map Prod.fst = baseStates.map Prod.fst)
    (hstate : state ∈ baseStates.map Prod.fst) :
      Counters.total (increment state counts) = Counters.total counts + 1 := by
  have hnodup : (baseStates.map Prod.fst).Nodup := by decide
  exact Counters.total_add 1 (hkeys ▸ hnodup) (hkeys ▸ hstate)

/-- All jobs of the loop. -/
theorem countStates_conserved (partition : Option Str) : ∀ {jobs : List (Value F)} {counts counts' : List (Str × Nat)}
    {total total' : Nat}, counts.map Prod.fst = baseStates.map Prod.fst → Counters.total counts = total →
      countStates partition jobs (counts, total) = .ok (counts', total') →
        Counters.total counts' = total' ∧ total' = total + jobs.countP (jobSelected partition)
  | [], counts, counts', total, total', _, h, hrun => by
    obtain ⟨rfl, rfl⟩ := Prod.mk.inj (Except.ok.inj hrun)
    exact ⟨h, rfl⟩
  | job :: jobs, counts, counts', total, total', hkeys, h, hrun => by
    cases job with
    | dict job =>
      have hskip : (partition.any fun name => decide (name ∉ partitionValues (Value.get job "partition"))) =
          !jobSelected partition (.dict job) := by
        rw [jobSelected, Bool.not_not]
      rw [countStates, hskip] at hrun
      rw [List.countP_cons]
      cases hselected : jobSelected partition (.dict job) with
      | false =>
        rw [hselected] at hrun
        exact countStates_conserved partition hkeys h hrun
      | true =>
        rw [hselected] at hrun
        obtain ⟨states, -, hrun⟩ := Except.bind_eq_ok.1 hrun
        obtain ⟨state, hstate, hrun⟩ := Except.bind_eq_ok.1 hrun
        have hmem : state ∈ baseStates.map Prod.fst := by
          rcases firstState_key hstate with rfl | hmem
          · decide
          · exact hmem
        obtain ⟨hconserved, htotal⟩ := countStates_conserved partition ((increment_keys _ _).trans hkeys)
          ((total_increment hkeys hmem).trans (congrArg (· + 1) h)) hrun
        refine ⟨hconserved, htotal.trans ?_⟩
        rw [if_pos rfl]
        omega
    | _ => cases hrun

theorem countStates_ok (partition : Option Str) : ∀ {jobs : List (Value F)}, (∀ job ∈ jobs, LiveJob job) →
    ∀ counts, ∃ result, countStates partition jobs counts = .ok result
  | [], _, counts => ⟨counts, rfl⟩
  | job :: jobs, h, counts => by
    obtain ⟨hlive, hrest⟩ := List.forall_mem_cons.1 h
    cases job with
    | dict job =>
      obtain ⟨states, hstates, -⟩ := hlive.running
      obtain ⟨state, hstate⟩ := firstState_ok states baseStates
      rw [countStates]
      split
      · exact countStates_ok partition hrest counts
      · rw [hstates, Except.ok_bind, hstate, Except.ok_bind]
        exact countStates_ok partition hrest _
    | _ => cases hlive

theorem pythonError_eq_ok {α : Type} {x : Except Py.Error α} {a : α} : pythonError x = .ok a ↔ x = .ok a := by
  cases x <;> simp [pythonError, Except.mapError]

/-- **The figures are conserved**: what the nodes and the jobs of a partition add to the tables is what
they add to the totals, and the totals are those of the selected nodes and jobs. -/
theorem figures_conserved (partition : Option Str) :
    (∀ nodes : List (Node F), (∀ node ∈ nodes, CoresSplit node) →
      (∀ r, resourcesStates (.ok nodes) partition = .ok r →
        Conserved r ∧
        r.nodes = Counters.table nodeStates (fun state =>
          ((nodes.countP fun node => selected partition node && decide (stateOf node = state) : Nat) : Int)) ∧
        r.nodesTotal = nodes.countP (selected partition) ∧
        r.totals = ((nodes.filter (selected partition)).map nodeTotals).sum) ∧
      ((∀ node ∈ nodes, selected partition node = true → Readable node) →
        ∃ r, resourcesStates (.ok nodes) partition = .ok r)) ∧
    (∀ node : Node F, stateOf node ∈ nodeStates) ∧
    ∀ (client : Client F) (cluster : Cluster F) (jobs : List (Value F)), client.jobsUnfiltered cluster = .ok jobs →
      (∀ counts total, jobsStates client cluster partition = .ok (counts, total) →
        Counters.total counts = total ∧ total = jobs.countP (jobSelected partition)) ∧
      ((∀ job ∈ jobs, LiveJob job) → ∃ counts, jobsStates client cluster partition = .ok counts) := by
  refine ⟨fun nodes hnodes => ⟨fun r hr => ?_, fun hreadable => ?_⟩, stateOf_mem, fun client cluster jobs hjobs =>
    ⟨fun counts total hcounts => ?_, fun hlive => ?_⟩⟩
  · have hrun : addNodes partition nodes .start = .ok r := pythonError_eq_ok.1 hr
    obtain ⟨hconserved, htable, htotal⟩ :=
      @addNodes_conserved F _ partition nodes .start r hnodes start_conserved.1 start_conserved.2
      (fun _ => 0) rfl hrun
    refine ⟨hconserved, ?_, ?_, ?_⟩
    · simpa only [zero_add] using htable
    · rw [htotal]
      exact zero_add _
    · exact (addNodes_totals partition hrun).trans (zero_add _)
  · obtain ⟨r, hr⟩ := addNodes_ok partition hreadable .start
    exact ⟨r, pythonError_eq_ok.2 hr⟩
  · rw [jobsStates, hjobs, Except.ok_bind] at hcounts
    obtain ⟨hconserved, htotal⟩ := countStates_conserved partition (by decide) (by decide)
      (pythonError_eq_ok.1 hcounts)
    exact ⟨hconserved, htotal.trans (zero_add _)⟩
  · obtain ⟨counts, hcounts⟩ := countStates_ok partition hlive (baseStates.map fun state => (state.1, 0), 0)
    exact ⟨counts, by rw [jobsStates, hjobs, Except.ok_bind, hcounts]; rfl⟩

/-- A node in use, that reports more memory in use than it has. -/
def mixedNode : Node ℚ :=
  { partitions := .str "a,b", cpus := 4, gres := "gpu:h100:2", gresUsed := "gpu:h100:1(IDX:0)", realMemory := some 100,
    allocMemory := some 200, state := ["MIXED", "PLANNED"], allocCpus := 3, allocIdleCpus := 1 }

theorem mixedNode_readable : ∀ node ∈ [mixedNode], Readable node := by
  intro node hnode
  cases List.mem_singleton.1 hnode
  exact ⟨⟨2, by decide⟩, ⟨1, by decide⟩⟩

theorem figures_conserved_mixed :
    (∃ r, resourcesStates (.ok [mixedNode]) (some "a") = .ok r ∧ Conserved r ∧ r.totals = (1, 4, 2, 100 / 1024)) ∧
      ∃ counts total, jobsStates asciiClient sharedCluster (some "a") = .ok (counts, total) ∧
        Counters.total counts = total := by
  obtain ⟨hnodes, -, hjobs⟩ := @figures_conserved ℚ _ (some "a")
  obtain ⟨hconserved, hreturns⟩ := hnodes [mixedNode] fun node hnode => by
    cases List.mem_singleton.1 hnode
    exact fun _ => rfl
  obtain ⟨hbalance, hcounted⟩ := hjobs asciiClient sharedCluster [sharedJob] rfl
  obtain ⟨r, hr⟩ := hreturns fun node hnode _ => mixedNode_readable node hnode
  obtain ⟨⟨counts, total⟩, hcounts⟩ := hcounted sharedJob_live
  obtain ⟨hbalanced, -, -, htotals⟩ := hconserved r hr
  have hnode : ([mixedNode].filter (selected (some "a"))).map nodeTotals = [(1, 4, 2, 100 / 1024)] := by decide +kernel
  rw [hnode, List.sum_singleton] at htotals
  exact ⟨⟨r, hr, hbalanced, htotals⟩, counts, total, hcounts, (hbalance counts total hcounts).1⟩

end SlurmWeb.Slurmrestd
