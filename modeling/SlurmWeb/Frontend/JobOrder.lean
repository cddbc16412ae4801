import SlurmWeb.Lib.JsRecord
import SlurmWeb.Lib.Comparator

/-!
# Order of the jobs page (frontend/src/composables/GatewayAPI.ts)

The page sorts its jobs with a comparator. An optional number is unset, infinite or finite.

| here | there |
| --- | --- |
| `compareClusterOptionalNumberOrder` | `compareClusterOptionalNumberOrder` (:599) |
| `compareClusterJobSortOrder` | `compareClusterJobSortOrder` (:752) |
| `sortedJobs` | `sortedJobs` (views/JobsView.vue:104) |

`compareClusterOptionalNumberOrder` asks whether the first number is infinite, but never whether the second is: a
finite number is compared with the number field of an infinite one.

* `compareOptional_eq` — what it computes otherwise: unset, then the finite numbers, then infinite.
* `compare_consistent_iff` — the comparator is consistent exactly where those number fields are large enough.
-/

namespace SlurmWeb.Frontend.JobOrder

open Strings Comparator
open JsRecord (codeUnits)

inductive JobSortOrder
  | asc
  | desc
  deriving DecidableEq

inductive JobSortCriterion
  | id
  | user
  | state
  | priority
  | resources
  deriving DecidableEq

structure ClusterOptionalNumber (N : Type) where
  infinite : Bool
  number : N
  set : Bool

structure ClusterJob (N : Type) where
  cpus : ClusterOptionalNumber N
  jobId : N
  jobState : List Str
  nodeCount : ClusterOptionalNumber N
  priority : ClusterOptionalNumber N
  userName : Str

namespace JobSortOrder

/-- `order == 'asc' ? 1 : -1` -/
def above : JobSortOrder → Int
  | .asc => 1
  | .desc => -1

/-- `order == 'asc' ? -1 : 1` -/
def below : JobSortOrder → Int
  | .asc => -1
  | .desc => 1

theorem below_eq (order : JobSortOrder) : order.below = -order.above := by cases order <;> rfl

theorem above_ne_zero (order : JobSortOrder) : order.above ≠ 0 := by cases order <;> decide

end JobSortOrder

variable {N : Type} [LinearOrder N]

/-- `compareClusterOptionalNumberOrder` (:599) -/
def compareClusterOptionalNumberOrder (a b : ClusterOptionalNumber N) (order : JobSortOrder) : Int :=
  if !a.set then
    if b.set then order.below else 0
  else if !b.set then order.above
  else if a.infinite then
    if !b.infinite then order.above else 0
  else if b.number < a.number then order.above
  else if a.number < b.number then order.below
  else 0

/-- The tests `a > b` and `a < b`, of values that are not optional. -/
def compareValues {K : Type} [LinearOrder K] (a b : K) (order : JobSortOrder) : Int :=
  if b < a then order.above else if a < b then order.below else 0

/-- A list as a text, for `>` and `<`. -/
def joined (texts : List Str) : Str := [','].intercalate texts

/-- `compareClusterJobSortOrder` (:752) -/
def compareClusterJobSortOrder (a b : ClusterJob N) (sort : JobSortCriterion) (order : JobSortOrder) : Int :=
  match sort with
  | .user => compareValues (codeUnits a.userName) (codeUnits b.userName) order
  | .state => compareValues (codeUnits (joined a.jobState)) (codeUnits (joined b.jobState)) order
  | .priority => compareClusterOptionalNumberOrder a.priority b.priority order
  | .resources =>
    let cmp := compareClusterOptionalNumberOrder a.nodeCount b.nodeCount order
    if cmp ≠ 0 then cmp else compareClusterOptionalNumberOrder a.cpus b.cpus order
  | .id => compareValues a.jobId b.jobId order

/-- `sortedJobs` (JobsView.vue:104), of the jobs that pass the filters. -/
def sortedJobs (sort : JobSortCriterion) (order : JobSortOrder) (jobs : List (ClusterJob N)) : List (ClusterJob N) :=
  Comparator.sort (fun a b => compareClusterJobSortOrder a b sort order) jobs

/-! ## Optional numbers -/

namespace ClusterOptionalNumber

/-- Unset, then the finite numbers, then infinite. -/
def rank (a : ClusterOptionalNumber N) : WithBot (WithTop N) :=
  if a.set then if a.infinite then ((⊤ : WithTop N) : WithBot (WithTop N)) else ((a.number : WithTop N) :
    WithBot (WithTop N)) else ⊥

structure Finite (a : ClusterOptionalNumber N) : Prop where
  set : a.set = true
  infinite : a.infinite = false

structure Infinite (a : ClusterOptionalNumber N) : Prop where
  set : a.set = true
  infinite : a.infinite = true

/-- A finite number is below the number field of an infinite one. -/
def Clear (a b : ClusterOptionalNumber N) : Prop := a.Finite → b.Infinite → a.number < b.number

omit [LinearOrder N] in
theorem rank_finite {a : ClusterOptionalNumber N} (h : a.Finite) :
    a.rank = ((a.number : WithTop N) : WithBot (WithTop N)) := by
  rw [rank, if_pos h.set, if_neg (by simp [h.infinite])]

omit [LinearOrder N] in
theorem rank_infinite {a : ClusterOptionalNumber N} (h : a.Infinite) :
    a.rank = ((⊤ : WithTop N) : WithBot (WithTop N)) := by
  rw [rank, if_pos h.set, if_pos h.infinite]

omit [LinearOrder N] in
theorem rank_unset {a : ClusterOptionalNumber N} (h : a.set = false) : a.rank = ⊥ := by
  rw [rank, if_neg (by simp [h])]

theorem rank_lt {a b : ClusterOptionalNumber N} (ha : a.Finite) (hb : b.Infinite) : a.rank < b.rank := by
  rw [rank_finite ha, rank_infinite hb]
  exact WithBot.coe_lt_coe.2 (WithTop.coe_lt_top _)

omit [LinearOrder N] in
theorem cases (a : ClusterOptionalNumber N) : a.set = false ∨ a.Finite ∨ a.Infinite := by
  cases hset : a.set with
  | false => exact .inl rfl
  | true =>
    cases hinfinite : a.infinite with
    | false => exact .inr (.inl ⟨hset, hinfinite⟩)
    | true => exact .inr (.inr ⟨hset, hinfinite⟩)

theorem clear_of_infinite {a b : ClusterOptionalNumber N} (ha : a.Infinite) : Clear a b :=
  fun hfinite => absurd (ha.infinite.symm.trans hfinite.infinite) (by decide)

end ClusterOptionalNumber

open ClusterOptionalNumber

theorem compareOptional_unset {a b : ClusterOptionalNumber N} (ha : a.set = false) (order : JobSortOrder) :
    compareClusterOptionalNumberOrder a b order = if b.set then order.below else 0 := by
  rw [compareClusterOptionalNumberOrder, if_pos (by simp [ha])]

theorem compareOptional_finite {a b : ClusterOptionalNumber N} (ha : a.Finite) (hb : b.set = true)
    (order : JobSortOrder) :
    compareClusterOptionalNumberOrder a b order = order.above * sgn a.number b.number := by
  rw [compareClusterOptionalNumberOrder, if_neg (by simp [ha.set]), if_neg (by simp [hb]),
    if_neg (by simp [ha.infinite]), sgn]
  split_ifs
  · rw [mul_one]
  · rw [order.below_eq, mul_neg_one]
  · rw [mul_zero]

theorem compareOptional_infinite {a b : ClusterOptionalNumber N} (ha : a.Infinite) (hb : b.set = true)
    (order : JobSortOrder) :
    compareClusterOptionalNumberOrder a b order = if b.infinite then 0 else order.above := by
  rw [compareClusterOptionalNumberOrder, if_neg (by simp [ha.set]), if_neg (by simp [hb]), if_pos ha.infinite]
  cases b.infinite <;> rfl

theorem compareOptional_eq {a b : ClusterOptionalNumber N} (h : Clear a b) (order : JobSortOrder) :
    compareClusterOptionalNumberOrder a b order = order.above * sgn a.rank b.rank := by
  have hbot : ∀ x : WithTop N, (⊥ : WithBot (WithTop N)) < x := WithBot.bot_lt_coe
  rcases a.cases with ha | ha | ha
  · rw [compareOptional_unset ha, rank_unset ha]
    rcases b.cases with hb | hb | hb
    · rw [rank_unset hb, hb, sgn_self, mul_zero]
      rfl
    · rw [rank_finite hb, sgn_of_lt (hbot _), hb.set, mul_neg_one, ← order.below_eq]
      rfl
    · rw [rank_infinite hb, sgn_of_lt (hbot _), hb.set, mul_neg_one, ← order.below_eq]
      rfl
  · rw [rank_finite ha]
    rcases b.cases with hb | hb | hb
    · rw [rank_unset hb, sgn_of_gt (hbot _), mul_one, compareClusterOptionalNumberOrder, if_neg (by simp [ha.set]),
        if_pos (by simp [hb])]
    · rw [compareOptional_finite ha hb.set, rank_finite hb, sgn, sgn]
      simp only [WithBot.coe_lt_coe, WithTop.coe_lt_coe]
    · rw [compareOptional_finite ha hb.set, ← rank_finite ha, sgn_of_lt (rank_lt ha hb), sgn_of_lt (h ha hb)]
  · rw [rank_infinite ha]
    rcases b.cases with hb | hb | hb
    · rw [rank_unset hb, sgn_of_gt (hbot _), mul_one, compareClusterOptionalNumberOrder, if_neg (by simp [ha.set]),
        if_pos (by simp [hb])]
    · rw [compareOptional_infinite ha hb.set, ← rank_infinite ha, sgn_of_gt (rank_lt hb ha), mul_one, hb.infinite]
      rfl
    · rw [compareOptional_infinite ha hb.set, rank_infinite hb, sgn_self, mul_zero, hb.infinite]
      rfl

theorem compareValues_eq {K : Type} [LinearOrder K] (a b : K) (order : JobSortOrder) :
    compareValues a b order = order.above * sgn a b := by
  rw [compareValues, sgn]
  split_ifs
  · rw [mul_one]
  · rw [order.below_eq, mul_neg_one]
  · rw [mul_zero]

/-- A finite number not below the number field of an infinite one. -/
theorem compareOptional_of_not_clear {a b : ClusterOptionalNumber N} (h : ¬ Clear a b) (order : JobSortOrder) :
    a.Finite ∧ b.Infinite ∧
      compareClusterOptionalNumberOrder a b order = if b.number < a.number then order.above else 0 := by
  obtain ⟨ha, hb, hnot⟩ : a.Finite ∧ b.Infinite ∧ ¬ a.number < b.number := by
    simpa only [Clear, Classical.not_imp] using h
  refine ⟨ha, hb, ?_⟩
  rw [compareOptional_finite ha hb.set, sgn, if_neg hnot]
  split_ifs
  · rw [mul_one]
  · rw [mul_zero]

/-- Compared one way and the other, the results are opposite only where the number fields are large enough. -/
theorem compareOptional_antisymm_iff {a b : ClusterOptionalNumber N} (order : JobSortOrder) :
    compareClusterOptionalNumberOrder a b order = -compareClusterOptionalNumberOrder b a order ↔
      Clear a b ∧ Clear b a := by
  have hnot : ∀ {a b : ClusterOptionalNumber N}, ¬ Clear a b →
      compareClusterOptionalNumberOrder a b order ≠ -compareClusterOptionalNumberOrder b a order := by
    intro a b h heq
    obtain ⟨ha, hb, hcompare⟩ := compareOptional_of_not_clear h order
    rw [hcompare, compareOptional_eq (clear_of_infinite hb), sgn_of_gt (rank_lt ha hb), mul_one] at heq
    split_ifs at heq
    · exact order.above_ne_zero (by omega)
    · exact order.above_ne_zero (by omega)
  constructor
  · intro h
    refine ⟨?_, ?_⟩
    · by_contra hclear
      exact hnot hclear h
    · by_contra hclear
      exact hnot hclear (by omega)
  · rintro ⟨hab, hba⟩
    rw [compareOptional_eq hab, compareOptional_eq hba, sgn_swap, mul_neg]

/-! ## Jobs -/

/-- What the jobs page relies on, over a set of jobs. -/
structure Consistent (jobs : Set (ClusterJob N)) (sort : JobSortCriterion) (order : JobSortOrder) : Prop where
  antisymm : ∀ a ∈ jobs, ∀ b ∈ jobs, compareClusterJobSortOrder a b sort
    order = -compareClusterJobSortOrder b a sort order
  trans : ∀ a ∈ jobs, ∀ b ∈ jobs, ∀ c ∈ jobs, compareClusterJobSortOrder a b sort order ≤ 0 →
    compareClusterJobSortOrder b c sort order ≤ 0 → compareClusterJobSortOrder a c sort order ≤ 0
  reverse : ∀ a ∈ jobs, ∀ b ∈ jobs, compareClusterJobSortOrder a b sort
    .desc = -compareClusterJobSortOrder a b sort .asc
  ordered : ∀ list, (∀ job ∈ list, job ∈ jobs) →
    (sortedJobs sort order list).Pairwise fun a b => compareClusterJobSortOrder a b sort order ≤ 0
  independent : ∀ list list', (∀ job ∈ list, job ∈ jobs) → list.Perm list' →
    List.Forall₂ (fun a b => compareClusterJobSortOrder a b sort order = 0) (sortedJobs sort order list)
      (sortedJobs sort order list')

/-- The number fields of infinite numbers do not mislead the comparison of the two jobs. By resources, jobs with the
same node count are compared by their cores, and so are a job with a finite node count and one with an infinite count of
the same number field. -/
def NumbersClear (sort : JobSortCriterion) (a b : ClusterJob N) : Prop :=
  match sort with
  | .priority => Clear a.priority b.priority
  | .resources =>
    (a.nodeCount.rank = b.nodeCount.rank → Clear a.cpus b.cpus) ∧
      (a.nodeCount.Finite → b.nodeCount.Infinite → a.nodeCount.number < b.nodeCount.number ∨
        a.nodeCount.number = b.nodeCount.number ∧ a.cpus.rank < b.cpus.rank ∧ Clear a.cpus b.cpus)
  | _ => True

/-- The descending comparison is the negation of the ascending one. -/
theorem compare_desc (a b : ClusterJob N) (sort : JobSortCriterion) :
    compareClusterJobSortOrder a b sort .desc = -compareClusterJobSortOrder a b sort .asc := by
  have hvalues : ∀ {K : Type} [LinearOrder K] (x y : K), compareValues x y .desc = -compareValues x y .asc := by
    intro K _ x y
    rw [compareValues_eq, compareValues_eq, ← neg_mul]
    rfl
  have hnumbers : ∀ x y : ClusterOptionalNumber N,
      compareClusterOptionalNumberOrder x y .desc = -compareClusterOptionalNumberOrder x y .asc := by
    intro x y
    unfold compareClusterOptionalNumberOrder
    split_ifs <;> rfl
  cases sort with
  | id => exact hvalues _ _
  | user => exact hvalues _ _
  | state => exact hvalues _ _
  | priority => exact hnumbers _ _
  | resources =>
    unfold compareClusterJobSortOrder
    dsimp only
    rw [hnumbers a.nodeCount, hnumbers a.cpus]
    by_cases h : compareClusterOptionalNumberOrder a.nodeCount b.nodeCount .asc = 0
    · rw [if_neg (by simp [h]), if_neg (by simp [h])]
    · rw [if_pos (by omega), if_pos h]

theorem compare_resources {a b : ClusterJob N} (h : NumbersClear .resources a b) (order : JobSortOrder) :
    compareClusterJobSortOrder a b .resources order =
      order.above * sgn (toLex (a.nodeCount.rank, a.cpus.rank)) (toLex (b.nodeCount.rank, b.cpus.rank)) := by
  rw [compareClusterJobSortOrder, sgn_lex]
  by_cases hclear : Clear a.nodeCount b.nodeCount
  · rw [compareOptional_eq hclear]
    by_cases hrank : sgn a.nodeCount.rank b.nodeCount.rank = 0
    · rw [hrank, mul_zero, if_neg (by decide), if_neg (by decide), compareOptional_eq (h.1 (sgn_eq_zero.1 hrank))]
    · rw [if_pos (mul_ne_zero order.above_ne_zero hrank), if_pos hrank]
  · obtain ⟨ha, hb, hcompare⟩ := compareOptional_of_not_clear hclear order
    rcases h.2 ha hb with hlt | ⟨heq, hcpus, hcpusClear⟩
    · exact absurd (fun _ _ => hlt) hclear
    · rw [hcompare, if_neg heq.not_gt, if_neg (by decide), compareOptional_eq hcpusClear, sgn_of_lt hcpus,
        sgn_of_lt (rank_lt ha hb), if_pos (by decide)]

section

variable {jobs : Set (ClusterJob N)} {sort : JobSortCriterion} {order : JobSortOrder}

theorem ranked_of_sgn {K : Type} [LinearOrder K] (rank : ClusterJob N → K)
    (h : ∀ a ∈ jobs, ∀ b ∈ jobs, compareClusterJobSortOrder a b sort order = order.above * sgn (rank a) (rank b)) :
    Ranked (fun a b => compareClusterJobSortOrder a b sort order) jobs := by
  cases order with
  | asc => exact ⟨K, inferInstance, rank, fun a ha b hb => (h a ha b hb).trans (one_mul _)⟩
  | desc =>
    refine ⟨Kᵒᵈ, inferInstance, fun a => OrderDual.toDual (rank a), fun a ha b hb => ?_⟩
    rw [sgn_dual]
    exact (h a ha b hb).trans (neg_one_mul _)

theorem ranked_of_clear (h : ∀ a ∈ jobs, ∀ b ∈ jobs, NumbersClear sort a b) :
    Ranked (fun a b => compareClusterJobSortOrder a b sort order) jobs := by
  cases sort with
  | id => exact ranked_of_sgn ClusterJob.jobId fun a _ b _ => compareValues_eq _ _ _
  | user => exact ranked_of_sgn (fun a => codeUnits a.userName) fun a _ b _ => compareValues_eq _ _ _
  | state => exact ranked_of_sgn (fun a => codeUnits (joined a.jobState)) fun a _ b _ => compareValues_eq _ _ _
  | priority => exact ranked_of_sgn (fun a => a.priority.rank) fun a ha b hb => compareOptional_eq (h a ha b hb) _
  | resources =>
    exact ranked_of_sgn (fun a => toLex (a.nodeCount.rank, a.cpus.rank)) fun a ha b hb =>
      compare_resources (h a ha b hb) _

/-- Where the results are opposite both ways, the number fields do not mislead. -/
theorem clear_of_antisymm {a b : ClusterJob N}
    (h : compareClusterJobSortOrder a b sort order = -compareClusterJobSortOrder b a sort order) :
      NumbersClear sort a b := by
  cases sort with
  | id => trivial
  | user => trivial
  | state => trivial
  | priority => exact ((compareOptional_antisymm_iff order).1 h).1
  | resources =>
    unfold compareClusterJobSortOrder at h
    dsimp only at h
    refine ⟨fun hrank => ?_, fun ha hb => ?_⟩
    · -- the node counts tie, the cores decide
      have hab : Clear a.nodeCount b.nodeCount := fun ha hb => absurd hrank (rank_lt ha hb).ne
      have hba : Clear b.nodeCount a.nodeCount := fun hb ha => absurd hrank (rank_lt hb ha).ne'
      rw [compareOptional_eq hab, compareOptional_eq hba, hrank, sgn_self, mul_zero, if_neg (by decide),
        if_neg (by decide)] at h
      exact ((compareOptional_antisymm_iff order).1 h).1
    · rw [compareOptional_eq (clear_of_infinite hb), sgn_of_gt (rank_lt ha hb), mul_one, if_pos order.above_ne_zero,
        compareOptional_finite ha hb.set] at h
      rcases lt_trichotomy a.nodeCount.number b.nodeCount.number with hlt | heq | hgt
      · exact .inl hlt
      · refine .inr ⟨heq, ?_⟩
        rw [heq, sgn_self, mul_zero, if_neg (by decide)] at h
        have hclear : Clear a.cpus b.cpus := by
          by_contra hnot
          obtain ⟨-, -, hcompare⟩ := compareOptional_of_not_clear hnot order
          rw [hcompare] at h
          split_ifs at h
          · exact order.above_ne_zero (by omega)
          · exact order.above_ne_zero (by omega)
        rw [compareOptional_eq hclear, ← mul_neg_one] at h
        exact ⟨sgn_eq_neg_one.1 (mul_left_cancel₀ order.above_ne_zero h), hclear⟩
      · rw [sgn_of_gt hgt, mul_one, if_pos order.above_ne_zero] at h
        exact absurd (by omega) order.above_ne_zero

/-- **The comparator is consistent** over a set of jobs exactly where the number fields of infinite numbers are
large enough. -/
theorem compare_consistent_iff (jobs : Set (ClusterJob N)) (sort : JobSortCriterion) (order : JobSortOrder) :
    Consistent jobs sort order ↔ ∀ a ∈ jobs, ∀ b ∈ jobs, NumbersClear sort a b := by
  refine ⟨fun h a ha b hb => clear_of_antisymm (h.antisymm a ha b hb), fun h => ?_⟩
  have hranked : Ranked (fun a b => compareClusterJobSortOrder a b sort order) jobs := ranked_of_clear h
  exact {
    antisymm := fun a ha b hb => hranked.antisymm ha hb
    trans := fun a ha b hb c hc => hranked.trans ha hb hc
    reverse := fun a _ b _ => compare_desc a b sort
    ordered := fun list hlist => hranked.pairwise_sort hlist
    independent := fun list list' hlist hperm => hranked.sort_perm hlist hperm }

end

/-- A pending job of one node and core. -/
def plainJob (jobId : Int) (priority : ClusterOptionalNumber Int) : ClusterJob Int :=
  { cpus := ⟨false, 1, true⟩, jobId, jobState := ["PENDING"], nodeCount := ⟨false, 1, true⟩, priority
    userName := "alice" }

/-- An infinite priority, of number 0, and the priority 2: each is above the other. -/
theorem infinite_priority_misplaced : ¬ ∀ (sort : JobSortCriterion) (order : JobSortOrder),
    Consistent (Set.univ : Set (ClusterJob Int)) sort order := by
  intro h
  have habove : compareClusterJobSortOrder (plainJob 1 ⟨true, 0, true⟩) (plainJob 2 ⟨false, 2, true⟩) .priority
      .asc = 1 := by decide
  have hagain : compareClusterJobSortOrder (plainJob 2 ⟨false, 2, true⟩) (plainJob 1 ⟨true, 0, true⟩) .priority
      .asc = 1 := by decide
  have hopposite := (h .priority .asc).antisymm _ (Set.mem_univ (plainJob 1 ⟨true, 0, true⟩)) _
    (Set.mem_univ (plainJob 2 ⟨false, 2, true⟩))
  rw [habove, hagain] at hopposite
  exact absurd hopposite (by decide)

end SlurmWeb.Frontend.JobOrder
