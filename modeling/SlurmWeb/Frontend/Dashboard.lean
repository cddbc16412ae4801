import SlurmWeb.Frontend.UrlState

/-!
# The dashboard and its address (stores/runtime/dashboard.ts, views/DashboardView.vue)

| here | there |
| --- | --- |
| `restoreQuery`, `query`, `metricsQuery` | dashboard.ts :49, :58, :87 |
| `View`, `Step` | DashboardView.vue :81-146, :220-229, ChartResourcesHistogram.vue :130, :141 |

The partition is a choice of the user, who may lose the right to choose while the page is open. The watchers on it are
run after the event that changes it.

* `dashboard_reached` — a partition shown may be chosen, and the address asks for the same metrics.
-/

namespace SlurmWeb.Dashboard

open Strings UrlState

inductive MetricRange
  | week | day | hour
deriving DecidableEq

namespace MetricRange

/-- `MetricRanges` -/
def all : List MetricRange := [.week, .day, .hour]

def name : MetricRange → Str
  | .week => "week"
  | .day => "day"
  | .hour => "hour"

theorem spelled_name (range : MetricRange) : spelled all name (some range.name) = some range := by
  cases range <;> decide

end MetricRange

inductive ChartResourcesType
  | nodes | cores | memory | gpus
deriving DecidableEq

namespace ChartResourcesType

/-- `chartResourcesTypes` -/
def all : List ChartResourcesType := [.nodes, .cores, .memory, .gpus]

def name : ChartResourcesType → Str
  | .nodes => "nodes"
  | .cores => "cores"
  | .memory => "memory"
  | .gpus => "gpus"

theorem spelled_name (resources : ChartResourcesType) : spelled all name (some resources.name) = some resources := by
  cases resources <;> decide

end ChartResourcesType

/-- `DateTimeWindowQuery`, or a range. -/
inductive Window
  | between (start stop : Str)
  | last (range : MetricRange)
deriving DecidableEq

structure DashboardStore where
  range : MetricRange
  chartResourcesType : ChartResourcesType
  partition : Str
  start : Str
  stop : Str

namespace DashboardStore

/-- `restoreQuery` (dashboard.ts :49) -/
def restoreQuery (query : LocationQuery) : DashboardStore where
  range := (spelled MetricRange.all MetricRange.name (string? query "range".toList)).getD .hour
  chartResourcesType := (spelled ChartResourcesType.all ChartResourcesType.name
    (string? query "resources".toList)).getD .nodes
  partition := (string? query "partition".toList).getD []
  start := (string? query "start".toList).getD []
  stop := (string? query "end".toList).getD []

def fields (s : DashboardStore) : List (Str × Option Str) :=
  (if s.start = [] ∨ s.stop = [] then
    [("range".toList, differing .hour MetricRange.name s.range), ("start".toList, none), ("end".toList, none)]
  else [("range".toList, none), ("start".toList, some s.start), ("end".toList, some s.stop)]) ++
    [("resources".toList, differing .nodes ChartResourcesType.name s.chartResourcesType),
      ("partition".toList, nonEmpty s.partition)]

/-- `query` (:58) -/
def query (s : DashboardStore) : LocationQuery := present s.fields

/-- What `metricsQuery` (:87) asks for, with the partition. -/
def metricsQuery (s : DashboardStore) : Window × Option Str :=
  (if s.start ≠ [] ∧ s.stop ≠ [] then .between s.start s.stop else .last s.range, nonEmpty s.partition)

theorem fields_nodup (s : DashboardStore) : (s.fields.map Prod.fst).Nodup := by
  have hkeys : s.fields.map Prod.fst = ["range", "start", "end", "resources", "partition"].map String.toList := by
    unfold fields
    split <;> rfl
  rw [hkeys]
  decide

theorem string_query {s : DashboardStore} {key : Str} {value : Option Str} (h : (key, value) ∈ s.fields) :
    string? s.query key = value :=
  string_present s.fields_nodup h

theorem restore_partition (s : DashboardStore) : (restoreQuery s.query).partition = s.partition := by
  have hwritten : string? s.query "partition".toList = nonEmpty s.partition :=
    string_query (List.mem_append_right _ (.tail _ (.head _)))
  exact (congrArg (Option.getD · []) hwritten).trans (nonEmpty_getD _)

theorem restore_chartResourcesType (s : DashboardStore) :
    (restoreQuery s.query).chartResourcesType = s.chartResourcesType := by
  have hwritten : string? s.query "resources".toList = differing .nodes ChartResourcesType.name s.chartResourcesType :=
    string_query (List.mem_append_right _ (.head _))
  refine (congrArg (fun v => (spelled ChartResourcesType.all ChartResourcesType.name v).getD .nodes) hwritten).trans ?_
  refine read_differing (r := fun v => (spelled ChartResourcesType.all ChartResourcesType.name v).getD .nodes) rfl ?_
  rw [s.chartResourcesType.spelled_name, Option.getD_some]

/-- Without both bounds the address has the range. -/
theorem restore_range {s : DashboardStore} (h : s.start = [] ∨ s.stop = []) :
    (restoreQuery s.query).range = s.range ∧ (restoreQuery s.query).start = [] ∧ (restoreQuery s.query).stop = [] := by
  have hmem : ∀ {e}, e ∈ [("range".toList, differing .hour MetricRange.name s.range), ("start".toList, none),
      ("end".toList, none)] → e ∈ s.fields := fun he => List.mem_append_left _ (by rw [if_pos h]; exact he)
  refine ⟨?_, congrArg (Option.getD · []) (string_query (hmem (.tail _ (.head _)))),
    congrArg (Option.getD · []) (string_query (hmem (.tail _ (.tail _ (.head _)))))⟩
  refine (congrArg (fun v => (spelled MetricRange.all MetricRange.name v).getD .hour)
    (string_query (hmem (.head _)))).trans ?_
  refine read_differing (r := fun v => (spelled MetricRange.all MetricRange.name v).getD .hour) rfl ?_
  rw [s.range.spelled_name, Option.getD_some]

/-- With both bounds the range is left out. -/
theorem restore_window {s : DashboardStore} (h : ¬(s.start = [] ∨ s.stop = [])) :
    (restoreQuery s.query).range = .hour ∧ (restoreQuery s.query).start = s.start ∧
      (restoreQuery s.query).stop = s.stop := by
  have hmem : ∀ {e}, e ∈ [("range".toList, none), ("start".toList, some s.start),
      ("end".toList, some s.stop)] → e ∈ s.fields :=
    fun he => List.mem_append_left _ (by rw [if_neg h]; exact he)
  exact ⟨congrArg (fun v => (spelled MetricRange.all MetricRange.name v).getD .hour) (string_query (hmem (.head _))),
    congrArg (Option.getD · []) (string_query (hmem (.tail _ (.head _)))),
    congrArg (Option.getD · []) (string_query (hmem (.tail _ (.tail _ (.head _)))))⟩

theorem metricsQuery_restore (s : DashboardStore) : (restoreQuery s.query).metricsQuery = s.metricsQuery := by
  unfold metricsQuery
  rw [restore_partition]
  by_cases h : s.start = [] ∨ s.stop = []
  · obtain ⟨hrange, hstart, hstop⟩ := restore_range h
    rw [hrange, hstart, hstop, if_neg (fun hboth => hboth.1 rfl), if_neg]
    rintro ⟨hs, he⟩
    exact h.elim hs he
  · obtain ⟨-, hstart, hstop⟩ := restore_window h
    rw [hstart, hstop, if_pos (not_or.1 h), if_pos (not_or.1 h)]

end DashboardStore

/-! ## The view -/

open DashboardStore

/-- The page: the store, the address it is at, the one that `router.push` is on its way to, whether the user
may choose a partition, the partitions that are listed, and whether the list was loaded. -/
structure View where
  store : DashboardStore
  url : LocationQuery
  pending : Option LocationQuery
  canSelectPartition : Bool
  allowedPartitionNames : List Str
  partitionsLoaded : Bool

namespace View

/-- The address that the page is at, or will be. -/
def target (v : View) : LocationQuery := v.pending.getD v.url

/-- `syncQuery` (DashboardView.vue :81) -/
def syncQuery (v : View) : View := { v with pending := if v.store.query = v.url then none else some v.store.query }

/-- The watcher on the partition (:220), run when it is no longer `old`: a partition that is taken back is a
change again. -/
def watchPartition (v : View) (old : Str) : View :=
  if v.store.partition = old then v
  else if v.store.partition ≠ [] ∧ (v.canSelectPartition = false ∨ v.store.partition ∉ v.allowedPartitionNames) then
    syncQuery { v with store.partition := [] }
  else v.syncQuery

/-- The partition that the watcher on the rights (:131) leaves. -/
def checked (v : View) : Str :=
  if v.store.partition = [] then []
  else if v.canSelectPartition = false then []
  else if v.partitionsLoaded = false then v.store.partition
  else if v.store.partition ∉ v.allowedPartitionNames then [] else v.store.partition

/-- The page is opened: the watchers on the address and on the rights are run at once, the one on the
partition is not. -/
def opened (query : LocationQuery) (canSelect : Bool) (allowed : List Str) (loaded : Bool) : View :=
  let v : View := ⟨restoreQuery query, query, none, canSelect, allowed, loaded⟩
  { v with store.partition := v.checked }

def setRange (v : View) (range : MetricRange) : View :=
  syncQuery { v with store.range := range, store.start := [], store.stop := [] }

def applyMetricsWindow (v : View) (start stop : Str) : View :=
  syncQuery { v with store.start := start, store.stop := stop }

def resetMetricsWindow (v : View) : View := v.setRange .hour

/-- `setResourceType` (ChartResourcesHistogram.vue :130) -/
def setResourceType (v : View) (resourceType : ChartResourcesType) : View :=
  syncQuery { v with store.chartResourcesType := resourceType }

def selectPartition (v : View) (name : Str) : View :=
  watchPartition { v with store.partition := name } v.store.partition

/-- The watcher of the resources chart (ChartResourcesHistogram.vue :141), where there is a chart. -/
def watchResources (v : View) (old : ChartResourcesType) (chart : Bool) : View :=
  if chart ∧ v.store.chartResourcesType ≠ old then v.syncQuery else v

/-- `route.query` has changed (:113). -/
def arrive (v : View) (query : LocationQuery) (chart : Bool) : View :=
  let restored := { v with store := restoreQuery query, url := query, pending := none }
  (restored.watchPartition v.store.partition).watchResources v.store.chartResourcesType chart

/-- The rights of the user, or the list of partitions, have changed (:131). -/
def permissions (v : View) (canSelect : Bool) (allowed : List Str) (loaded : Bool) : View :=
  let v' := { v with canSelectPartition := canSelect, allowedPartitionNames := allowed, partitionsLoaded := loaded }
  watchPartition { v' with store.partition := v'.checked } v.store.partition

/-- One event of the page. An address is opened while it is another than the one shown. -/
inductive Step : View → View → Prop
  | range {v} (range) : Step v (v.setRange range)
  | window {v} (start stop) : Step v (v.applyMetricsWindow start stop)
  | reset {v} : Step v v.resetMetricsWindow
  | resources {v} (resourceType) : Step v (v.setResourceType resourceType)
  | select {v} (name) : Step v (v.selectPartition name)
  | arrive {v query} (chart) (h : v.pending = some query) : Step v (v.arrive query chart)
  | visit {v query} (chart) (h : query ≠ v.url) : Step v (v.arrive query chart)
  | permissions {v} (canSelect allowed loaded) : Step v (v.permissions canSelect allowed loaded)

inductive Reached : View → Prop
  | opened (query canSelect allowed loaded) : Reached (opened query canSelect allowed loaded)
  | step {v v'} (h : Reached v) (hstep : Step v v') : Reached v'

/-- The partition shown is one that the user may choose. -/
def Selectable (v : View) : Prop :=
  v.store.partition ≠ [] → v.canSelectPartition = true ∧
    (v.partitionsLoaded = true → v.store.partition ∈ v.allowedPartitionNames)

/-- The address asks for the metrics that are shown; its partition may be one that was taken back when the
page was opened. -/
structure Agrees (v : View) : Prop where
  window : (restoreQuery v.target).metricsQuery.1 = v.store.metricsQuery.1
  resources : (restoreQuery v.target).chartResourcesType = v.store.chartResourcesType
  partition : v.store.partition = [] ∨ (restoreQuery v.target).partition = v.store.partition

theorem target_syncQuery (v : View) : v.syncQuery.target = v.store.query := by
  unfold syncQuery target
  by_cases h : v.store.query = v.url
  · rw [if_pos h]
    exact h.symm
  · rw [if_neg h]
    rfl

theorem agrees_syncQuery (v : View) : v.syncQuery.Agrees := by
  constructor
  · rw [target_syncQuery, metricsQuery_restore]
    rfl
  · rw [target_syncQuery, restore_chartResourcesType]
    rfl
  · rw [target_syncQuery, restore_partition]
    exact .inr rfl

theorem selectable_nil {v : View} (h : v.store.partition = []) : v.Selectable := fun hne => absurd h hne

theorem agrees_watchPartition {v : View} {old : Str} (h : v.store.partition = old → v.Agrees) :
    (v.watchPartition old).Agrees := by
  rw [watchPartition]
  split
  next hsame => exact h hsame
  next =>
    split
    next => exact agrees_syncQuery _
    next => exact agrees_syncQuery _

theorem selectable_watchPartition {v : View} {old : Str} (h : v.store.partition = old → v.Selectable) :
    (v.watchPartition old).Selectable := by
  rw [watchPartition]
  split
  next hsame => exact h hsame
  next =>
    split
    next => exact selectable_nil rfl
    next hallowed =>
      intro hne
      have hboth := not_or.1 fun hor => hallowed ⟨hne, hor⟩
      exact ⟨Bool.eq_true_of_not_eq_false hboth.1, fun _ => not_not.1 hboth.2⟩

/-- The watcher on the rights keeps the partition or takes it back. -/
theorem checked_cases (v : View) : v.checked = [] ∨
    v.checked = v.store.partition ∧ v.canSelectPartition = true ∧
      (v.partitionsLoaded = true → v.store.partition ∈ v.allowedPartitionNames) := by
  unfold checked
  split
  next => exact .inl rfl
  next =>
    split
    next => exact .inl rfl
    next hselect =>
      have hcan : v.canSelectPartition = true := Bool.eq_true_of_not_eq_false hselect
      split
      next hloaded => exact .inr ⟨rfl, hcan, fun h => by rw [hloaded] at h; cases h⟩
      next =>
        split
        next => exact .inl rfl
        next hmem => exact .inr ⟨rfl, hcan, fun _ => not_not.1 hmem⟩

theorem selectable_checked (v : View) : Selectable { v with store.partition := v.checked } := by
  intro hne
  obtain h | ⟨h, hcan, hlisted⟩ := v.checked_cases
  · exact absurd h hne
  · exact ⟨hcan, fun hloaded => by rw [h]; exact hlisted hloaded⟩

structure Inv (v : View) : Prop where
  selectable : v.Selectable
  agrees : v.Agrees

theorem inv_opened (query : LocationQuery) (canSelect : Bool) (allowed : List Str) (loaded : Bool) :
    (opened query canSelect allowed loaded).Inv where
  selectable := selectable_checked _
  agrees := by
    refine ⟨rfl, rfl, ?_⟩
    obtain h | ⟨h, -⟩ := checked_cases ⟨restoreQuery query, query, none, canSelect, allowed, loaded⟩
    · exact .inl h
    · exact .inr h.symm

theorem inv_arrive {v : View} (h : v.Inv) (query : LocationQuery) (chart : Bool) : (v.arrive query chart).Inv := by
  have hrestored : Inv (watchPartition { v with store := restoreQuery query, url := query, pending := none }
      v.store.partition) := by
    refine ⟨selectable_watchPartition fun hsame hne => ?_, agrees_watchPartition fun _ => ⟨rfl, rfl, .inr rfl⟩⟩
    have hold := h.selectable
    rw [Selectable, ← hsame] at hold
    exact hold hne
  rw [arrive, watchResources]
  split
  next => exact ⟨hrestored.selectable, agrees_syncQuery _⟩
  next => exact hrestored

theorem inv_step {v v' : View} (h : v.Inv) (hstep : Step v v') : v'.Inv := by
  cases hstep with
  | range range => exact ⟨h.selectable, agrees_syncQuery _⟩
  | window start stop => exact ⟨h.selectable, agrees_syncQuery _⟩
  | reset => exact ⟨h.selectable, agrees_syncQuery _⟩
  | resources resourceType => exact ⟨h.selectable, agrees_syncQuery _⟩
  | select name =>
    have hkept : ∀ P : View → Prop, P v → name = v.store.partition → P { v with store.partition := name } := by
      rintro P hP rfl
      exact hP
    exact ⟨selectable_watchPartition fun hsame => hkept _ h.selectable hsame,
      agrees_watchPartition fun hsame => hkept _ h.agrees hsame⟩
  | arrive chart => exact inv_arrive h _ chart
  | visit chart => exact inv_arrive h _ chart
  | permissions canSelect allowed loaded =>
    refine ⟨selectable_watchPartition fun _ => selectable_checked _, agrees_watchPartition fun hsame => ?_⟩
    exact ⟨h.agrees.window, h.agrees.resources, hsame.symm ▸ h.agrees.partition⟩

theorem inv_reached {v : View} (h : Reached v) : v.Inv := by
  induction h with
  | opened query canSelect allowed loaded => exact inv_opened query canSelect allowed loaded
  | step _ hstep ih => exact inv_step ih hstep

/-- **The partition of the dashboard** is one that the user may choose, and the address asks for what is shown. -/
theorem dashboard_reached {v : View} (h : Reached v) : v.Selectable ∧ v.Agrees :=
  ⟨(inv_reached h).selectable, (inv_reached h).agrees⟩

/-- A user chooses a partition, and the right to choose is taken back. -/
def chosen : View := (opened [] true ["cpu", "gpu"] true).selectPartition "gpu"

theorem dashboard_reached_lostRight : chosen.store.partition = "gpu".toList ∧
    (chosen.permissions false [] true).Selectable ∧ (chosen.permissions false [] true).Agrees :=
  ⟨by decide, dashboard_reached
    (.step (.step (.opened [] true ["cpu", "gpu"] true) (.select "gpu")) (.permissions false [] true))⟩

end View

end SlurmWeb.Dashboard
