import SlurmWeb.Lib.Series
import SlurmWeb.Lib.Strings

/-!
# History figures of the cluster analysis (frontend/src/composables/ClusterAnalysis.ts)

The metrics of several states are added up to one timeline, of which the figures are taken. The first points of the
states are added, then the second ones, whatever times they bear.

| here | there |
| --- | --- |
| `extractTimeline` | `extractTimeline` (:247) |
| `latestValue`, `peakValue`, `averageValue` | :258-271 |
| `history` | the timelines and `history` of `analyzeCluster` (:518, :707) |

The chart of the same metrics looks the points up by their time (charts/LiveHistogram.ts :77).

* `timeline_aligned_iff` — when a timeline adds up the values of each time, and of no two.
* `history_aligned` — the figures are then those of the values added up by time.
* `late_state_mixed` — a state that starts later is added to the times before.
-/

namespace SlurmWeb.Frontend

open Strings Series

variable {T M : Type} [Zero M] [Add M]

/-- Metrics by state, `none` where there is no such state. -/
abbrev Metrics (T M : Type) := Str → Option (Points T M)

/-- `extractTimeline` (:247) -/
def extractTimeline : Option (Metrics T M) → List Str → List M
  | none, _ => []
  | some metrics, states =>
    let maxLength := (states.map fun state => ((metrics state).map List.length).getD 0).foldr max 0
    (List.range maxLength).map fun index => states.foldl
      (fun total state => total + (((metrics state).bind (·[index]?)).map Prod.snd).getD 0) 0

/-- The series of the states, one without points for a state that is missing. -/
def seriesOf (metrics : Option (Metrics T M)) (states : List Str) : List (Points T M) :=
  states.map fun state => (metrics.bind (· state)).getD []

omit [Zero M] [Add M] in
theorem maxLength_seriesOf (metrics : Metrics T M) (states : List Str) :
    maxLength (seriesOf (some metrics) states) =
      (states.map fun state => ((metrics state).map List.length).getD 0).foldr max 0 := by
  rw [maxLength, seriesOf, List.map_map]
  refine congrArg (List.foldr max 0) (List.map_congr_left fun state _ => ?_)
  dsimp only [Function.comp_apply, Option.bind_some]
  cases metrics state <;> rfl

omit [Zero M] [Add M] in
theorem maxLength_missing (states : List Str) : maxLength (seriesOf (none : Option (Metrics T M)) states) = 0 := by
  induction states with
  | nil => rfl
  | cons state states ih => exact (Nat.zero_max _).trans ih

theorem extractTimeline_eq (metrics : Option (Metrics T M)) (states : List Str) :
    extractTimeline metrics states = positional (seriesOf metrics states) := by
  cases metrics with
  | none => rw [positional, maxLength_missing]; rfl
  | some metrics =>
    rw [positional, maxLength_seriesOf, extractTimeline]
    refine List.map_congr_left fun index _ => ?_
    rw [total, seriesOf, List.foldl_map]
    refine List.foldl_ext _ _ 0 fun sum state _ => congrArg (sum + ·) ?_
    dsimp only [Option.bind_some]
    cases metrics state <;> rfl

/-! ## Timelines by time -/

section
variable [LinearOrder T]

/-- For every time the states' values of that time, and no values of two times added. -/
def ByTime (metrics : Option (Metrics T M)) (states : List Str) : Prop :=
  extractTimeline metrics states = aligned (seriesOf metrics states) ∧ NoMix (seriesOf metrics states)

/-- **The timeline is aligned** exactly when the series are beginnings of one another. -/
theorem timeline_aligned_iff (metrics : Option (Metrics T M)) (states : List Str)
    (hsorted : ∀ s ∈ seriesOf metrics states, (times s).Pairwise (· ≤ ·)) :
    ByTime metrics states ↔ Nested (seriesOf metrics states) := by
  rw [ByTime, extractTimeline_eq]
  exact aligned_iff hsorted

end

/-- `allocated` and `mixed`, one of them over more times than the other. -/
def busyMetrics (mixed : Points Nat Nat) : Metrics Nat Nat := fun state =>
  if state = "allocated".toList then some [(1, 5), (2, 5)]
  else if state = "mixed".toList then some mixed
  else none

theorem timeline_aligned_iff_early : ByTime (some (busyMetrics [(1, 3)])) ["allocated", "mixed"] :=
  (timeline_aligned_iff _ _ (by decide)).2 ⟨by decide, by decide⟩

theorem late_state_mixed : ¬ ∀ (metrics : Option (Metrics Nat Nat)) (states : List Str),
    (∀ s ∈ seriesOf metrics states, (times s).Pairwise (· ≤ ·)) → ByTime metrics states := by
  intro hall
  have hmixed := (hall (some (busyMetrics [(2, 3)])) ["allocated", "mixed"] (by decide)).2
  have htimes := hmixed 0 [(1, 5), (2, 5)] (by decide) [(2, 3)] (by decide) (1, 5) (2, 3) rfl rfl
  exact absurd htimes (by decide)

/-! ## Figures -/

/-- `latestValue` (:258) -/
def latestValue (values : List M) : Option M := values.getLast?

section
variable [Max M] [Div M] [NatCast M] [LinearOrder T]

/-- `peakValue` (:263) -/
def peakValue (values : List M) : Option M := values.max?

/-- `averageValue` (:268) -/
def averageValue (values : List M) : Option M :=
  if values = [] then none else some (values.foldl (fun total value => total + value) 0 / (values.length : M))

structure History (M : Type) where
  latestPending : Option M
  peakPending : Option M
  averagePending : Option M
  latestRunning : Option M
  peakRunning : Option M
  peakBusyCores : Option M
  averageBusyCores : Option M
  peakAllocatedMemory : Option M
  peakBusyGpus : Option M

/-- The metrics of the analysis (:118-121). -/
structure Input (T M : Type) where
  jobsMetrics : Option (Metrics T M)
  coreMetrics : Option (Metrics T M)
  memoryMetrics : Option (Metrics T M)
  gpuMetrics : Option (Metrics T M)

def busyResourceStates : List Str := ["allocated", "mixed"]

/-- The figures of the timelines a function makes. -/
def historyBy (timeline : Option (Metrics T M) → List Str → List M) (input : Input T M) : History M :=
  let pendingTimeline := timeline input.jobsMetrics ["pending"]
  let runningTimeline := timeline input.jobsMetrics ["running"]
  let busyCoresTimeline := timeline input.coreMetrics busyResourceStates
  let allocatedMemoryTimeline := timeline input.memoryMetrics ["allocated"]
  let busyGpuTimeline := timeline input.gpuMetrics busyResourceStates
  { latestPending := latestValue pendingTimeline
    peakPending := peakValue pendingTimeline
    averagePending := averageValue pendingTimeline
    latestRunning := latestValue runningTimeline
    peakRunning := peakValue runningTimeline
    peakBusyCores := peakValue busyCoresTimeline
    averageBusyCores := averageValue busyCoresTimeline
    peakAllocatedMemory := peakValue allocatedMemoryTimeline
    peakBusyGpus := peakValue busyGpuTimeline }

/-- `history` (:707) -/
def history (input : Input T M) : History M := historyBy extractTimeline input

/-- Where no timeline mixes times, the figures are those of the values added up by time. -/
theorem history_aligned (input : Input T M) (hcores : Nested (seriesOf input.coreMetrics busyResourceStates))
    (hgpus : Nested (seriesOf input.gpuMetrics busyResourceStates)) (hjobs : ∀ state ∈ ["pending".toList, "running"],
      Nested (seriesOf input.jobsMetrics [state])) (hmemory : Nested (seriesOf input.memoryMetrics ["allocated"])) :
    history input = historyBy (fun metrics states => aligned (seriesOf metrics states)) input := by
  have htimeline : ∀ (metrics : Option (Metrics T M)) states, Nested (seriesOf metrics states) →
      extractTimeline metrics states = aligned (seriesOf metrics states) := fun metrics states h => by
    rw [extractTimeline_eq, positional_of_nested h]
  rw [history, historyBy, historyBy, htimeline _ _ hcores, htimeline _ _ hgpus, htimeline _ _ hmemory,
    htimeline _ _ (hjobs _ List.mem_cons_self), htimeline _ _ (hjobs _ (List.mem_cons_of_mem _ List.mem_cons_self))]

end

end SlurmWeb.Frontend
