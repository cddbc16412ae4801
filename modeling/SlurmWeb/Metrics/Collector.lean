import SlurmWeb.Slurmrestd.ResourceStates

/-!
# What Prometheus scrapes (slurmweb/metrics/collector.py)

A scrape asks slurmrestd for the figures of the cluster and of each partition, and gives for each resource
its states and its total, labelled by the partition.

| here | there |
| --- | --- |
| `Resource`, `Family` | `RESOURCE_METRICS` (:39), `GaugeMetricFamily` |
| `figures`, `gather`, `resourceFamilies` | `_collect` (:92) up to the resources |
| `Backend.collect` | the rest of `_collect`, `collect` (:218) |

Every request may meet another state of the cluster: the nodes and the jobs of each are a function of its number.

* `samples_nodup_iff` — the samples of a scrape are told apart by their labels.
* `collect_balanced` — a scrape has no figures or all, and they balance.
-/

namespace SlurmWeb.Metrics

open Strings Py Assistant Slurmrestd

variable {F : Type} [Python F]

/-! ## Samples -/

inductive Resource
  | nodes | cores | gpus | memory | jobs
deriving DecidableEq

namespace Resource

def all : List Resource := [.nodes, .cores, .gpus, .memory, .jobs]

/-- The name of the family of the states. -/
def name : Resource → Str
  | .nodes => "slurm_nodes"
  | .cores => "slurm_cores"
  | .gpus => "slurm_gpus"
  | .memory => "slurm_memory"
  | .jobs => "slurm_jobs"

end Resource

structure Family where
  name : Str
  samples : List (List Str × ℚ)

/-- The figures of the cluster, or of a partition. -/
structure Figures where
  label : Str
  resources : Resources
  jobsStates : List (Str × Nat)
  jobsTotal : Nat

/-- The states of a resource. -/
def Figures.states (figures : Figures) : Resource → List (Str × ℚ)
  | .nodes => figures.resources.nodes.map fun e => (e.1, (e.2 : ℚ))
  | .cores => figures.resources.cores.map fun e => (e.1, (e.2 : ℚ))
  | .gpus => figures.resources.gpus.map fun e => (e.1, (e.2 : ℚ))
  | .memory => [("idle".toList, figures.resources.memoryIdle), ("allocated".toList, figures.resources.memoryAllocated)]
  | .jobs => figures.jobsStates.map fun e => (e.1, (e.2 : ℚ))

def Figures.total (figures : Figures) : Resource → ℚ
  | .nodes => figures.resources.nodesTotal
  | .cores => figures.resources.coresTotal
  | .gpus => figures.resources.gpusTotal
  | .memory => figures.resources.memoryTotal
  | .jobs => figures.jobsTotal

/-- The samples of the states of a resource. -/
def samples (all : List Figures) (r : Resource) : List (List Str × ℚ) :=
  all.flatMap fun figures => (figures.states r).map fun e => ([e.1, figures.label], e.2)

def totals (all : List Figures) (r : Resource) : List (List Str × ℚ) :=
  all.map fun figures => ([figures.label], figures.total r)

/-- The families of `RESOURCE_METRICS` (:39). -/
def resourceFamilies (all : List Figures) : List Family :=
  Resource.all.flatMap fun r => [⟨r.name, samples all r⟩, ⟨r.name ++ "_total".toList, totals all r⟩]

/-! ## Scrapes -/

structure CacheMetrics where
  hits : List (Str × Nat)
  misses : List (Str × Nat)
  totalHits : Nat
  totalMisses : Nat

/-- What the collector asks; the numbered requests are of the cluster and then of each partition. -/
structure Backend (F : Type) where
  client : Client F
  nodes : Nat → Except BackendError (List (Node F))
  cluster : Nat → Cluster F
  partitions : Except BackendError (List Str)
  /-- `user_store.recent_submission_counts()`, where user metrics are enabled. -/
  submissions : Option (Except BackendError (List (Str × Nat)))
  /-- `self.cache.metrics()`, where there is a cache. -/
  cache : Option (Except BackendError CacheMetrics)

namespace Backend

variable (b : Backend F)

/-- The figures of a request. -/
def figures (n : Nat) (partition : Option Str) : Except BackendError Figures := do
  let resources ← resourcesStates (b.nodes n) partition
  let (states, total) ← jobsStates b.client (b.cluster n) partition
  return ⟨partition.getD [], resources, states, total⟩

/-- The requests to slurmrestd (:106-176). -/
def gather : Except BackendError (List Figures) := do
  let all ← b.figures 0 none
  let partitions ← b.partitions
  let each ← partitions.zipIdx.mapM fun p => b.figures (p.2 + 1) (some p.1)
  return all :: each

/-- `slurmweb_user_submissions_last_minute` (:183) -/
def submissionFamily (counts : List (Str × Nat)) : Family :=
  ⟨"slurmweb_user_submissions_last_minute", counts.map fun e => ([e.1], (e.2 : ℚ))⟩

/-- The families of the cache (:197). -/
def cacheFamilies (m : CacheMetrics) : List Family :=
  [⟨"slurmweb_cache_hit", m.hits.map fun e => ([e.1], (e.2 : ℚ))⟩,
    ⟨"slurmweb_cache_miss", m.misses.map fun e => ([e.1], (e.2 : ℚ))⟩,
    ⟨"slurmweb_cache_hit_total", [([], (m.totalHits : ℚ))]⟩, ⟨"slurmweb_cache_miss_total", [([], (m.totalMisses : ℚ))]⟩]

/-- `_collect` (:92): the families it yields, and the exception that ends it. -/
def collectRaw : List Family × Option BackendError :=
  match b.gather with
  | .error err => ([], some err)
  | .ok all =>
    match b.submissions with
    | some (.error err) => (resourceFamilies all, some err)
    | submissions =>
      let families := resourceFamilies all ++ match submissions with
        | some (.ok counts) => [submissionFamily counts]
        | _ => []
      match b.cache with
      | none => (families, none)
      | some (.error err) => (families, some err)
      | some (.ok m) => (families ++ cacheFamilies m, none)

end Backend

/-- The `except` clauses of `collect` (:221). -/
def caught : BackendError → Bool
  | .notFound _ | .invalidResponse _ | .connection _ | .internal .. | .cache _ | .authentication _ => true
  | .metricsDb _ | .python _ => false

/-- `collect` (:218): an exception that is caught ends the scrape, any other one fails it. -/
def Backend.collect (b : Backend F) : Except BackendError (List Family) :=
  match b.collectRaw with
  | (families, none) => .ok families
  | (families, some err) => if caught err then .ok families else .error err

/-! ## Balance -/

namespace Resource

/-- The states of a resource. -/
def keys : Resource → List Str
  | .nodes | .cores | .gpus => nodeStates
  | .memory => ["idle".toList, "allocated".toList]
  | .jobs => baseStates.map Prod.fst

theorem keys_nodup (r : Resource) : r.keys.Nodup := by cases r <;> decide

theorem keys_ne_nil (r : Resource) : r.keys ≠ [] := by cases r <;> exact List.cons_ne_nil _ _

end Resource

/-- Figures with the keys of the source, which add up. -/
structure Figures.Sound (figures : Figures) : Prop where
  keys : ∀ r, (figures.states r).map Prod.fst = r.keys
  balance : ∀ r, ((figures.states r).map Prod.snd).sum = figures.total r

theorem addNodes_sound (partition : Option Str) : ∀ {nodes : List (Node F)} {r r' : Resources},
    (∀ node ∈ nodes, CoresSplit node) →
    Keyed r → Conserved r → addNodes partition nodes r = .ok r' → Keyed r' ∧ Conserved r'
  | [], r, r', _, hkeys, h, hrun => by
    obtain rfl := Except.ok.inj hrun
    exact ⟨hkeys, h⟩
  | node :: nodes, r, r', hnodes, hkeys, h, hrun => by
    obtain ⟨hnode, hrest⟩ := List.forall_mem_cons.1 hnodes
    rw [addNodes_cons] at hrun
    split at hrun
    next =>
      obtain ⟨middle, hadd, hrun⟩ := Except.bind_eq_ok.1 hrun
      obtain ⟨hkeys', h', -⟩ := addNode_conserved hnode hkeys h hadd
      exact addNodes_sound partition hrest hkeys' h' hrun
    next => exact addNodes_sound partition hrest hkeys h hrun

theorem countStates_keys (partition : Option Str) : ∀ {jobs : List (Value F)} {counts counts' : List (Str × Nat)}
    {total total' : Nat},
    countStates partition jobs (counts, total) = .ok (counts', total') → counts'.map Prod.fst = counts.map Prod.fst
  | [], counts, counts', total, total', hrun => by
    obtain ⟨rfl, rfl⟩ := Prod.mk.inj (Except.ok.inj hrun)
    rfl
  | job :: jobs, counts, counts', total, total', hrun => by
    cases job with
    | dict job =>
      rw [countStates] at hrun
      split at hrun
      · exact countStates_keys partition hrun
      · obtain ⟨states, -, hrun⟩ := Except.bind_eq_ok.1 hrun
        obtain ⟨state, -, hrun⟩ := Except.bind_eq_ok.1 hrun
        exact (countStates_keys partition hrun).trans (increment_keys _ _)
    | _ => cases hrun

theorem cast_sum {M : Type} (cast : M → ℚ) [AddCommMonoid M] (hzero : cast 0 = 0)
    (hadd : ∀ a b, cast (a + b) = cast a + cast b)
    (table : List (Str × M)) : ((table.map fun e => (e.1, cast e.2)).map Prod.snd).sum =
      cast (Counters.total table) := by
  induction table with
  | nil => exact hzero.symm
  | cons e table ih =>
    have htotal : Counters.total (e :: table) = e.2 + Counters.total table := List.sum_cons
    rw [List.map_cons, List.map_cons, List.sum_cons, ih, htotal, hadd]

theorem keys_cast {M : Type} (cast : M → ℚ) (table : List (Str × M)) :
    (table.map fun e => (e.1, cast e.2)).map Prod.fst = table.map Prod.fst := by
  rw [List.map_map]
  rfl

theorem figures_sound {b : Backend F} {n : Nat} {partition : Option Str} {figures : Figures}
    (hnodes : ∀ nodes, b.nodes n = .ok nodes → ∀ node ∈ nodes, CoresSplit node)
      (h : b.figures n partition = .ok figures) :
    figures.Sound ∧ figures.label = partition.getD [] := by
  obtain ⟨resources, hresources, h⟩ := Except.bind_eq_ok.1 h
  obtain ⟨⟨states, total⟩, hstates, h⟩ := Except.bind_eq_ok.1 h
  obtain rfl := Except.ok.inj h
  obtain ⟨nodes, hread, hresources⟩ := Except.bind_eq_ok.1 hresources
  obtain ⟨hkeys, hconserved⟩ := addNodes_sound partition (hnodes nodes hread) start_conserved.1 start_conserved.2
    (pythonError_eq_ok.1 hresources)
  obtain ⟨jobs, -, hcounts⟩ := Except.bind_eq_ok.1 hstates
  have hcount := pythonError_eq_ok.1 hcounts
  have hjobs := (countStates_conserved partition (by decide) (by decide) hcount).1
  have hjobKeys : states.map Prod.fst = baseStates.map Prod.fst :=
    (countStates_keys partition hcount).trans (by decide)
  refine ⟨⟨fun r => ?_, fun r => ?_⟩, rfl⟩
  · cases r with
    | nodes => exact (keys_cast _ _).trans hkeys.nodes
    | cores => exact (keys_cast _ _).trans hkeys.cores
    | gpus => exact (keys_cast _ _).trans hkeys.gpus
    | memory => rfl
    | jobs => exact (keys_cast _ _).trans hjobKeys
  · have hint := cast_sum (fun n : Int => (n : ℚ)) Int.cast_zero Int.cast_add
    cases r with
    | nodes => exact (hint _).trans (congrArg _ hconserved.nodes)
    | cores => exact (hint _).trans (congrArg _ hconserved.cores)
    | gpus => exact (hint _).trans (congrArg _ hconserved.gpus)
    | memory =>
      have hsum :
          (([("idle".toList, resources.memoryIdle),
          ("allocated".toList, resources.memoryAllocated)] : List (Str × ℚ)).map
          Prod.snd).sum = resources.memoryIdle + resources.memoryAllocated := by simp
      exact hsum.trans hconserved.memory
    | jobs => exact (cast_sum (fun n : Nat => (n : ℚ)) Nat.cast_zero Nat.cast_add _).trans (congrArg _ hjobs)

/-- The nodes of every request: the cores of a mixed node are allocated or idle. -/
def Backend.Split (b : Backend F) : Prop := ∀ n nodes, b.nodes n = .ok nodes → ∀ node ∈ nodes, CoresSplit node

theorem gather_sound {b : Backend F} (hnodes : b.Split) {all : List Figures} (h : b.gather = .ok all) :
    (∀ figures ∈ all, figures.Sound) ∧ ∃ partitions, b.partitions = .ok partitions ∧
      all.map Figures.label = [] :: partitions := by
  obtain ⟨whole, hwhole, h⟩ := Except.bind_eq_ok.1 h
  obtain ⟨partitions, hpartitions, h⟩ := Except.bind_eq_ok.1 h
  obtain ⟨each, heach, h⟩ := Except.bind_eq_ok.1 h
  obtain rfl := Except.ok.inj h
  have hall := Except.mapM_eq_ok.1 heach
  obtain ⟨hsound, hlabel⟩ := figures_sound (hnodes 0) hwhole
  refine ⟨?_, partitions, hpartitions, ?_⟩
  · intro figures hfigures
    rcases List.mem_cons.1 hfigures with rfl | hmem
    · exact hsound
    · obtain ⟨p, -, hp⟩ := hall.exists_left _ hmem
      exact (figures_sound (hnodes _) hp).1
  · rw [List.map_cons, hlabel]
    have hlabels : List.Forall₂ (fun (p : Str × Nat) (figures : Figures) => p.1 = figures.label)
        partitions.zipIdx each :=
      hall.imp fun p figures hp => ((figures_sound (hnodes _) hp).2).symm
    have hmap : partitions.zipIdx.map Prod.fst = each.map Figures.label :=
      List.forall₂_eq_eq_eq ▸ (List.forall₂_map_left_iff.2 (List.forall₂_map_right_iff.2 hlabels))
    rw [← hmap, List.zipIdx_map_fst]
    rfl

/-! ## Labels -/

/-- The sum of the samples of a partition, which is the last label. -/
def labelSum (label : Str) (samples : List (List Str × ℚ)) : ℚ :=
  ((samples.filter fun s => s.1.getLast? = some label).map Prod.snd).sum

theorem labelSum_append (label : Str) (a b : List (List Str × ℚ)) :
    labelSum label (a ++ b) = labelSum label a + labelSum label b := by
  rw [labelSum, List.filter_append, List.map_append, List.sum_append]
  rfl

theorem labelSum_states (label : Str) (figures : Figures) (r : Resource) :
    labelSum label ((figures.states r).map fun e => ([e.1, figures.label], e.2)) =
      if figures.label = label then ((figures.states r).map Prod.snd).sum else 0 := by
  induction figures.states r with
  | nil => simp [labelSum]
  | cons e states ih =>
    have hcons : (e :: states).map (fun e => (([e.1, figures.label] : List Str), e.2)) =
        [([e.1, figures.label], e.2)] ++ states.map fun e => ([e.1, figures.label], e.2) := rfl
    rw [hcons, labelSum_append, ih]
    by_cases hlabel : figures.label = label
    · simp [labelSum, hlabel]
    · simp [labelSum, hlabel]

/-- What the states of a resource add up to is its total. -/
theorem labelSum_eq {all : List Figures} (hsound : ∀ figures ∈ all, figures.Sound) (r : Resource) (label : Str) :
    labelSum label (samples all r) = labelSum label (totals all r) := by
  induction all with
  | nil => rfl
  | cons figures all ih =>
    obtain ⟨hfigures, hrest⟩ := List.forall_mem_cons.1 hsound
    have htotals : totals (figures :: all) r = [([figures.label], figures.total r)] ++ totals all r := rfl
    rw [samples, List.flatMap_cons, labelSum_append, labelSum_states, hfigures.balance r, htotals, labelSum_append]
    refine congrArg₂ _ ?_ (ih hrest)
    by_cases hlabel : figures.label = label
    · simp [labelSum, hlabel]
    · simp [labelSum, hlabel]

/-- The samples of a resource are told apart exactly when the partitions are. -/
theorem samples_nodup_iff {all : List Figures} (hsound : ∀ figures ∈ all, figures.Sound) (r : Resource) :
    ((samples all r).map Prod.fst).Nodup ↔ (all.map Figures.label).Nodup := by
  have hlabels : (samples all r).map Prod.fst = all.flatMap fun figures => r.keys.map fun key =>
      [key, figures.label] := by
    rw [samples, List.map_flatMap]
    refine List.flatMap_congr fun figures hfigures => ?_
    rw [← (hsound figures hfigures).keys r, List.map_map, List.map_map]
    rfl
  obtain ⟨key, hkey⟩ := List.exists_mem_of_ne_nil _ r.keys_ne_nil
  have hpairwise : (all.map Figures.label).Nodup ↔ all.Pairwise fun a b => a.label ≠ b.label := List.pairwise_map
  rw [hlabels, List.nodup_flatMap, hpairwise]
  constructor
  · rintro ⟨-, hpairs⟩
    refine hpairs.imp fun {a b} hdisjoint heq => ?_
    have ha : [key, a.label] ∈ r.keys.map fun key => [key, a.label] := List.mem_map.2 ⟨key, hkey, rfl⟩
    have hb : [key, a.label] ∈ r.keys.map fun key => [key, b.label] := List.mem_map.2 ⟨key, hkey, by rw [heq]⟩
    exact hdisjoint ha hb
  · intro hpairs
    refine ⟨fun figures _ => r.keys_nodup.map fun key key' heq => (List.cons.inj heq).1,
      hpairs.imp fun {a b} hne l ha hb => ?_⟩
    obtain ⟨key, -, rfl⟩ := List.mem_map.1 ha
    obtain ⟨key', -, heq⟩ := List.mem_map.1 hb
    exact hne (List.cons.inj (List.cons.inj heq).2).1.symm

theorem collect_cases {b : Backend F} {families : List Family} (h : b.collect = .ok families) :
    (families = [] ∧ ∃ err, b.gather = .error err ∧ caught err = true) ∨
      ∃ all rest, b.gather = .ok all ∧ families = resourceFamilies all ++ rest := by
  cases hgather : b.gather with
  | error err =>
    have hraw : b.collectRaw = ([], some err) := by
      unfold Backend.collectRaw
      rw [hgather]
    unfold Backend.collect at h
    rw [hraw] at h
    dsimp only at h
    split at h
    next hcaught => exact .inl ⟨(Except.ok.inj h).symm, err, rfl, hcaught⟩
    next => cases h
  | ok all =>
    have hraw : ∃ rest, (b.collectRaw).1 = resourceFamilies all ++ rest := by
      unfold Backend.collectRaw
      rw [hgather]
      dsimp only
      split
      · exact ⟨[], (List.append_nil _).symm⟩
      · split
        · exact ⟨_, rfl⟩
        · exact ⟨_, rfl⟩
        · exact ⟨_, List.append_assoc _ _ _⟩
    obtain ⟨rest, hrest⟩ := hraw
    refine .inr ⟨all, rest, rfl, ?_⟩
    unfold Backend.collect at h
    split at h
    next heq =>
      obtain rfl := Except.ok.inj h
      rwa [heq] at hrest
    next heq =>
      split at h
      · obtain rfl := Except.ok.inj h
        rwa [heq] at hrest
      · cases h

/-- A scrape that is answered has no figures of resources, where slurmrestd failed, or has all of them,
whatever failed after. -/
theorem collect_balanced {b : Backend F} (hnodes : b.Split) {families : List Family} (h : b.collect = .ok families) :
    (families = [] ∧ ∃ err, b.gather = .error err ∧ caught err = true) ∨
      ∃ all rest partitions, families = resourceFamilies all ++ rest ∧ b.partitions = .ok partitions ∧
      all.map Figures.label = [] :: partitions ∧
      (∀ r label, labelSum label (samples all r) = labelSum label (totals all r)) ∧
      ∀ r, ((samples all r).map Prod.fst).Nodup ↔ [] ∉ partitions ∧ partitions.Nodup := by
  refine (collect_cases h).imp_right ?_
  rintro ⟨all, rest, hgather, hfamilies⟩
  obtain ⟨hsound, partitions, hpartitions, hlabels⟩ := gather_sound hnodes hgather
  refine ⟨all, rest, partitions, hfamilies, hpartitions, hlabels, labelSum_eq hsound, fun r => ?_⟩
  rw [samples_nodup_iff hsound, hlabels, List.nodup_cons]

/-- A cluster of one node, in two partitions, whose cache cannot be reached. -/
def mixedBackend : Backend ℚ where
  client := asciiClient
  nodes _ := .ok [mixedNode]
  cluster _ := sharedCluster
  partitions := .ok ["a".toList, "b".toList]
  submissions := none
  cache := some (.error (.cache "Connection refused"))

theorem mixedBackend_split : mixedBackend.Split := by
  intro n nodes hread node hnode
  obtain rfl := Except.ok.inj hread
  cases List.mem_singleton.1 hnode
  exact fun _ => rfl

theorem collect_balanced_mixed : ∃ families all rest, mixedBackend.collect = .ok families ∧
    families = resourceFamilies all ++ rest ∧ all.map Figures.label = [[], "a".toList, "b".toList] ∧
    (∀ r label, labelSum label (samples all r) = labelSum label (totals all r)) ∧
    ∀ r, ((samples all r).map Prod.fst).Nodup := by
  have hten : mixedBackend.collect.toOption.map List.length = some 10 := by decide
  cases hcollect : mixedBackend.collect with
  | error err =>
    rw [hcollect] at hten
    cases hten
  | ok families =>
    rw [hcollect] at hten
    rcases collect_balanced mixedBackend_split hcollect with ⟨hempty, -⟩ | ⟨all, rest, partitions, hfamilies,
        hpartitions, hlabels, hsum, hnodup⟩
    · rw [hempty] at hten
      cases hten
    · obtain rfl := Except.ok.inj hpartitions
      exact ⟨families, all, rest, rfl, hfamilies, hlabels, hsum, fun r => (hnodup r).2 (by decide)⟩

end SlurmWeb.Metrics
