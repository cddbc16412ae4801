import SlurmWeb.Analytics.Conservation
import SlurmWeb.Analytics.Rollups

/-!
# Accuracy of rollups (slurmweb/persistence/user_analytics_store.py)

A daily row keeps figures rounded to two decimals. The means and maxima of a user, made of daily rows, are
within half a hundredth of those of the jobs.

* `quantizeRat_near`, `quantizeRat_mono` — what rounding does.
* `payload_sampled` — a daily row in terms of the memories of its jobs.
* `rollup_accuracy` — tools, totals and the busiest tool.
-/

namespace SlurmWeb.Analytics

open Strings Py Jobs Gather WeightedMean

/-! ## Rounding -/

/-- Within half a hundredth. -/
def Near (a b : ℚ) : Prop := |a - b| ≤ 1 / 200

theorem quantizeRat_of_nonneg {x : ℚ} (h : 0 ≤ x) : quantizeRat x = ⌊x * 100 + 1 / 2⌋ / 100 := by
  rw [quantizeRat, if_neg (not_lt.2 h), abs_of_nonneg h]

theorem quantizeRat_of_neg {x : ℚ} (h : x < 0) : quantizeRat x = -(⌊-x * 100 + 1 / 2⌋ / 100) := by
  rw [quantizeRat, if_pos h, abs_of_neg h]
  push_cast
  ring

theorem near_floor (x : ℚ) : Near (⌊x * 100 + 1 / 2⌋ / 100) x := by
  have hle := Int.floor_le (x * 100 + 1 / 2)
  have hlt := Int.lt_floor_add_one (x * 100 + 1 / 2)
  rw [Near, abs_le]
  constructor <;> linarith

theorem quantizeRat_near (x : ℚ) : Near (quantizeRat x) x := by
  rcases le_or_gt 0 x with h | h
  · rw [quantizeRat_of_nonneg h]
    exact near_floor x
  · have hnear := near_floor (-x)
    rw [quantizeRat_of_neg h]
    rw [Near, abs_le] at hnear ⊢
    constructor <;> linarith [hnear.1, hnear.2]

theorem floor_cents_mono {x y : ℚ} (h : x ≤ y) : ((⌊x * 100 + 1 / 2⌋ : ℤ) : ℚ) / 100 ≤ ⌊y * 100 + 1 / 2⌋ / 100 := by
  have hfloor : ⌊x * 100 + 1 / 2⌋ ≤ ⌊y * 100 + 1 / 2⌋ := Int.floor_le_floor (by linarith)
  have hcast : ((⌊x * 100 + 1 / 2⌋ : ℤ) : ℚ) ≤ ⌊y * 100 + 1 / 2⌋ := Int.cast_le.2 hfloor
  linarith

theorem floor_cents_nonneg {x : ℚ} (h : 0 ≤ x) : (0 : ℚ) ≤ ⌊x * 100 + 1 / 2⌋ / 100 := by
  have hfloor : (0 : ℤ) ≤ ⌊x * 100 + 1 / 2⌋ := Int.floor_nonneg.2 (by linarith)
  exact div_nonneg (Int.cast_nonneg hfloor) (by norm_num)

theorem quantizeRat_mono {x y : ℚ} (h : x ≤ y) : quantizeRat x ≤ quantizeRat y := by
  rcases le_or_gt 0 x with hx | hx
  · rw [quantizeRat_of_nonneg hx, quantizeRat_of_nonneg (hx.trans h)]
    exact floor_cents_mono h
  · rw [quantizeRat_of_neg hx]
    rcases le_or_gt 0 y with hy | hy
    · rw [quantizeRat_of_nonneg hy]
      have hneg := floor_cents_nonneg (neg_nonneg.2 hx.le)
      exact (neg_nonpos.2 hneg).trans (floor_cents_nonneg hy)
    · rw [quantizeRat_of_neg hy]
      exact neg_le_neg (floor_cents_mono (neg_le_neg h))

/-! ## Daily rows -/

/-- The mean of some memories. -/
def meanOf (memories : List ℚ) : Mean ℚ := ⟨memories.sum, memories.length⟩

/-- A daily row of jobs with these memories. -/
structure Sampled (figures : Figures) (memories : List ℚ) : Prop where
  jobs : figures.jobsCount = memories.length
  nonempty : memories ≠ []
  avg : ∃ mean, figures.avgMemoryGb = some mean ∧ 0 < mean ∧ Near mean (memories.sum / memories.length)
  max : ∃ top, memories.max? = some top ∧ figures.maxMemoryGb = some (quantizeRat top) ∧ 0 < quantizeRat top

/-- A row of the table, read back as a mapping. -/
def dailyRow (item : DailyKey × DailyStat ℚ) : StatRow where
  tool := item.1.tool
  figures := {
    jobsCount := item.2.jobsCount
    avgMemoryGb := item.2.avgMemoryGb
    maxMemoryGb := item.2.maxMemoryGb
    medianMemoryGb := item.2.medianMemoryGb
    avgCpuCores := item.2.avgCpuCores
    avgRuntimeSeconds := item.2.avgRuntimeSeconds }

theorem avg_rat (total : ℚ) {samples : Nat} (h : samples ≠ 0) : avg total samples = .ok (some (total / samples)) := by
  rw [avg, if_neg h]
  rfl

theorem bucket_payload {rows : List (DailySource ℚ)} {stat : DailyStat ℚ}
    (h : (bucketOf rows).payload = .ok stat) (hne : (bucketOf rows).jobsCount ≠ 0) :
    let memories := rows.filterMap DailySource.usedMemoryGb
    stat.jobsCount = memories.length ∧ stat.avgMemoryGb = some (quantizeRat (memories.sum / memories.length)) ∧
      stat.maxMemoryGb = memories.max?.map quantizeRat := by
  have hlength : (rows.filterMap DailySource.usedMemoryGb).length ≠ 0 := hne
  rw [Bucket.payload] at h
  dsimp only [bucketOf] at h
  rw [avg_rat _ hlength, maximum_eq_max?] at h
  obtain ⟨_, hmemory, h⟩ := Except.bind_eq_ok.1 h
  cases hmemory
  obtain ⟨_, havg, h⟩ := Except.bind_eq_ok.1 h
  cases havg
  obtain ⟨maxMemory, hmax, h⟩ := Except.bind_eq_ok.1 h
  have hmax' : maxMemory = (rows.filterMap DailySource.usedMemoryGb).max?.map quantizeRat := by
    cases htop : (rows.filterMap DailySource.usedMemoryGb).max? with
    | none =>
      rw [htop] at hmax
      cases hmax
      rfl
    | some top =>
      rw [htop] at hmax
      cases hmax
      rfl
  obtain ⟨_, -, h⟩ := Except.bind_eq_ok.1 h
  obtain ⟨_, -, h⟩ := Except.bind_eq_ok.1 h
  obtain ⟨_, -, h⟩ := Except.bind_eq_ok.1 h
  obtain ⟨_, -, h⟩ := Except.bind_eq_ok.1 h
  obtain ⟨_, -, h⟩ := Except.bind_eq_ok.1 h
  cases h
  exact ⟨rfl, rfl, hmax'⟩

theorem sum_le_max {memories : List ℚ} {top : ℚ} (h : ∀ memory ∈ memories, memory ≤ top) :
    memories.sum ≤ memories.length * top := by
  simpa using List.sum_le_card_nsmul memories top h

/-- The memories of the jobs behind a key. -/
def samples (tool : DailySource ℚ → Str) (rows : List (DailySource ℚ)) (key : DailyKey) : List ℚ :=
  (ofKey (rowKey tool) key rows).filterMap DailySource.usedMemoryGb

variable {tool : DailySource ℚ → Str} {rows : List (DailySource ℚ)} {payload : List (DailyKey × DailyStat ℚ)}

/-- **A daily row in terms of the memories of its jobs.** -/
theorem payload_sampled (h : payloadOf (groupsOf tool rows).entries = .ok payload)
    (hpositive : ∀ item ∈ payload, ∃ mean, item.2.avgMemoryGb = some mean ∧ 0 < mean) {item : DailyKey × DailyStat ℚ}
    (hitem : item ∈ payload) : Sampled (dailyRow item).figures (samples tool rows item.1) := by
  obtain ⟨hjobs, hstat⟩ := (@mem_payload _ _ _ _ _ _ _ _ h item.1 item.2).1 hitem
  obtain ⟨hcount, havg, hmax⟩ := bucket_payload hstat hjobs
  obtain ⟨mean, hmean, hpos⟩ := hpositive item hitem
  obtain rfl : quantizeRat _ = mean := Option.some.inj (havg.symm.trans hmean)
  have hne : samples tool rows item.1 ≠ [] := List.ne_nil_of_length_pos (Nat.pos_of_ne_zero hjobs)
  obtain ⟨memory, hmemory⟩ := List.exists_mem_of_ne_nil _ hne
  obtain ⟨top, htop, -⟩ := List.le_max? hmemory
  refine ⟨congrArg Nat.cast hcount, hne, ⟨_, havg, hpos, quantizeRat_near _⟩, top, htop, ?_, ?_⟩
  · refine hmax.trans ?_
    rw [samples] at htop
    rw [htop]
    rfl
  · -- the maximum is no less than the mean, and rounding keeps this
    refine hpos.trans_le (quantizeRat_mono ?_)
    have hlength : (0 : ℚ) < (samples tool rows item.1).length := Nat.cast_pos.2 (List.length_pos_of_ne_nil hne)
    have hsum := sum_le_max (List.max?_eq_some_iff.1 htop).2
    exact (div_le_iff₀ hlength).2 (hsum.trans_eq (mul_comm _ _))

/-! ## Merged rows -/

section Merged
variable {figures : List Figures} {memories : List (List ℚ)}

theorem sampled_haveJobs (h : List.Forall₂ Sampled figures memories) : HaveJobs figures := by
  intro row hrow
  obtain ⟨sample, -, hsampled⟩ := h.exists_right row hrow
  rw [hsampled.jobs]
  exact Int.natCast_pos.2 (List.length_pos_of_ne_nil hsampled.nonempty)

theorem sampled_full (h : List.Forall₂ Sampled figures memories) : Full .memory figures := by
  intro row hrow
  obtain ⟨sample, -, hsampled⟩ := h.exists_right row hrow
  obtain ⟨mean, hmean, hpos, -⟩ := hsampled.avg
  have hvalue : positiveNumericValue (row.value .memory) = some mean := positiveNumericValue_eq_some.2 ⟨hmean, hpos⟩
  rw [hvalue]
  exact Option.some_ne_none mean

theorem sampled_jobs (h : List.Forall₂ Sampled figures memories) :
    (figures.map Figures.jobsCount).sum = (memories.flatten.length : ℤ) := by
  induction h with
  | nil => rfl
  | cons hrow _ ih =>
    rw [List.map_cons, List.sum_cons, ih, hrow.jobs, List.flatten_cons, List.length_append]
    exact (Nat.cast_add _ _).symm

theorem meanOf_flatten (memories : List (List ℚ)) : meanOf memories.flatten = (memories.map meanOf).sum := by
  induction memories with
  | nil => rfl
  | cons sample memories ih =>
    rw [List.map_cons, List.sum_cons, ← ih]
    ext <;> simp [meanOf]

/-- The mean of rounded means, weighted by jobs. -/
theorem sampled_mean (h : List.Forall₂ Sampled figures memories) :
    Option.Rel Near (flatMean .memory figures).avg (meanOf memories.flatten).avg := by
  have hmeans : List.Forall₂ (fun m n : Mean ℚ => m.weight = n.weight ∧ |m.total - n.total| ≤ 1 / 200 * m.weight)
      (figures.map fun row => Mean.of row.jobsCount (positiveNumericValue (row.value .memory)))
        (memories.map meanOf) := by
    refine List.forall₂_map_left_iff.2 (List.forall₂_map_right_iff.2 (h.imp fun row sample hsampled => ?_))
    obtain ⟨mean, hmean, hpos, hnear⟩ := hsampled.avg
    have hlength : (0 : ℚ) < sample.length := Nat.cast_pos.2 (List.length_pos_of_ne_nil hsampled.nonempty)
    have hvalue : positiveNumericValue (row.value .memory) = some mean := positiveNumericValue_eq_some.2 ⟨hmean, hpos⟩
    have hweight : (row.jobsCount : ℚ) = sample.length := by rw [hsampled.jobs, Int.cast_natCast]
    have herror : mean * sample.length - sample.sum = (mean - sample.sum / sample.length) * sample.length := by
      rw [sub_mul, div_mul_cancel₀ _ hlength.ne']
    rw [hvalue]
    refine ⟨hsampled.jobs, ?_⟩
    dsimp only [Mean.of, meanOf]
    rw [hweight, herror, abs_mul, abs_of_pos hlength]
    exact mul_le_mul_of_nonneg_right hnear hlength.le
  obtain ⟨hweight, herror⟩ := Mean.abs_sum_total_sub_le hmeans
  have hflat : (figures.map fun row => Mean.of row.jobsCount (positiveNumericValue (row.value .memory))).sum =
      flatMean .memory figures := by
    rw [flatMean, weighted, Mean.ofList, List.map_map]
    rfl
  rw [hflat, ← meanOf_flatten] at hweight herror
  cases hfigures : (flatMean .memory figures).avg with
  | none =>
    have hle : (flatMean .memory figures).weight ≤ 0 := by
      by_contra hpos
      rw [Mean.avg_of_pos (not_le.1 hpos)] at hfigures
      cases hfigures
    rw [Mean.avg, if_pos (hweight ▸ hle)]
    exact .none
  | some a =>
    cases hmemories : (meanOf memories.flatten).avg with
    | none =>
      rw [Mean.avg, ← hweight] at hmemories
      rw [Mean.avg] at hfigures
      split at hfigures
      · cases hfigures
      · rw [if_neg ‹_›] at hmemories
        cases hmemories
    | some b => exact .some (Mean.abs_avg_sub_le hweight herror hfigures hmemories)

/-- The maximum of rounded maxima is the rounded maximum. -/
theorem sampled_max (h : List.Forall₂ Sampled figures memories) :
    (maxima figures).max? = memories.flatten.max?.map quantizeRat := by
  have hround : memories.flatten.max?.map quantizeRat = (memories.flatten.map quantizeRat).max? := by
    cases htop : memories.flatten.max? with
    | none =>
      rw [List.max?_eq_none_iff] at htop
      rw [htop]
      rfl
    | some top =>
      obtain ⟨hmem, hle⟩ := List.max?_eq_some_iff.1 htop
      refine (List.max?_eq_some_iff.2 ⟨List.mem_map_of_mem hmem, fun cents hcents => ?_⟩).symm
      obtain ⟨memory, hmemory, rfl⟩ := List.mem_map.1 hcents
      exact quantizeRat_mono (hle memory hmemory)
  rw [hround]
  apply List.max?_eq_of_cofinal
  · intro cents hcents
    obtain ⟨row, hrow, hmax, -⟩ := mem_maxima.1 hcents
    obtain ⟨sample, hsample, hsampled⟩ := h.exists_right row hrow
    obtain ⟨top, htop, hrowMax, -⟩ := hsampled.max
    obtain rfl : quantizeRat top = cents := Option.some.inj (hrowMax.symm.trans hmax)
    exact ⟨_, List.mem_map_of_mem (List.mem_flatten.2 ⟨sample, hsample, List.max?_mem htop⟩), le_rfl⟩
  · intro cents hcents
    obtain ⟨memory, hmemory, rfl⟩ := List.mem_map.1 hcents
    obtain ⟨sample, hsample, hmemory⟩ := List.mem_flatten.1 hmemory
    obtain ⟨row, hrow, hsampled⟩ := h.exists_left sample hsample
    obtain ⟨top, htop, hrowMax, hpos⟩ := hsampled.max
    exact ⟨_, mem_maxima.2 ⟨row, hrow, hrowMax, hpos⟩,
      quantizeRat_mono ((List.max?_eq_some_iff.1 htop).2 memory hmemory)⟩

end Merged

/-! ## The rows of a table -/

/-- The memories of the counted jobs whose tool passes the test. -/
def memoriesWhere (tool : DailySource ℚ → Str) (p : Str → Bool) (rows : List (DailySource ℚ)) : List ℚ :=
  (rows.filter fun row => identified row && p (tool row)).filterMap DailySource.usedMemoryGb

def memoriesOf (tool : DailySource ℚ → Str) (name : Str) (rows : List (DailySource ℚ)) : List ℚ :=
  memoriesWhere tool (fun other => decide (other = name)) rows

theorem rowKey_eq_some {row : DailySource ℚ} {key : DailyKey} (h : rowKey tool row = some key) :
    identified row = true ∧ tool row = key.tool := by
  unfold rowKey at h
  unfold identified
  split at h
  · rename_i date user hdate huser
    cases h
    rw [hdate, huser]
    exact ⟨rfl, rfl⟩
  · cases h

theorem rowKey_isSome {row : DailySource ℚ} (h : identified row = true) : (rowKey tool row).isSome = true := by
  unfold identified at h
  unfold rowKey
  cases hdate : row.activityDate <;> cases huser : row.userId <;> simp_all

/-- **The daily rows of some tools are made of the jobs of these tools.** -/
theorem samples_perm (h : payloadOf (groupsOf tool rows).entries = .ok payload) (p : Str → Bool) :
    ((payload.filter fun item => p item.1.tool).map fun item => samples tool rows item.1).flatten.Perm
      (memoriesWhere tool p rows) := by
  -- the key of a counted row of these tools
  let key : DailySource ℚ → Option DailyKey := fun row => if row.usedMemoryGb.isSome &&
    p (tool row) then rowKey tool row else none
  have hnodup : ((payload.filter fun item => p item.1.tool).map Prod.fst).Nodup :=
    (List.filter_sublist.map Prod.fst).nodup (payload_nodup h)
  have hcover : ∀ row ∈ rows, ∀ k, key row = some k → k ∈ (payload.filter fun item => p item.1.tool).map Prod.fst := by
    intro row hrow k hk
    dsimp only [key] at hk
    split at hk
    · rename_i hcounted
      rw [Bool.and_eq_true, Option.isSome_iff_exists] at hcounted
      obtain ⟨⟨memory, hmemory⟩, hp⟩ := hcounted
      have hmem : memory ∈ samples tool rows k :=
        List.mem_filterMap.2 ⟨row, List.mem_filter.2 ⟨hrow, decide_eq_true hk⟩, hmemory⟩
      have hjobs : (bucketOf (ofKey (rowKey tool) k rows)).jobsCount ≠ 0 := (List.length_pos_of_mem hmem).ne'
      obtain ⟨stat, hstat, -⟩ := payload_ok (bucketOf (ofKey (rowKey tool) k rows))
      refine List.mem_map.2 ⟨(k, stat), List.mem_filter.2 ⟨(mem_payload h).2 ⟨hjobs, hstat⟩, ?_⟩, rfl⟩
      rw [← (rowKey_eq_some hk).2]
      exact hp
    · cases hk
  have hperm := (flatMap_ofKey_perm hnodup hcover).filterMap DailySource.usedMemoryGb
  rw [List.filterMap_flatMap, List.flatMap_map] at hperm
  have hsamples : ∀ item ∈ payload.filter fun item => p item.1.tool,
      (ofKey key item.1 rows).filterMap DailySource.usedMemoryGb = samples tool rows item.1 := by
    intro item hitem
    have hp : p item.1.tool = true := (List.mem_filter.1 hitem).2
    rw [samples, ofKey, ofKey, List.filterMap_filter, List.filterMap_filter]
    refine List.filterMap_congr fun row _ => ?_
    cases hmemory : row.usedMemoryGb with
    | none => simp
    | some memory =>
      by_cases hkey : rowKey tool row = some item.1
      · simp [key, hmemory, hkey, (rowKey_eq_some hkey).2, hp]
      · have hkey' : ¬key row = some item.1 := by
          dsimp only [key]
          split
          · exact hkey
          · exact fun hnone => by cases hnone
        simp [hkey, hkey']
  have hrows : (rows.filter fun row => (key row).isSome).filterMap DailySource.usedMemoryGb =
      memoriesWhere tool p rows := by
    rw [memoriesWhere, List.filterMap_filter, List.filterMap_filter]
    refine List.filterMap_congr fun row _ => ?_
    cases hmemory : row.usedMemoryGb with
    | none => simp
    | some memory =>
      cases hp : p (tool row) with
      | false => simp [key, hp]
      | true =>
        cases hidentified : identified row with
        | false =>
          have hnone : rowKey tool row = none := by
            cases hkey : rowKey tool row with
            | none => rfl
            | some k => rw [(rowKey_eq_some hkey).1] at hidentified; cases hidentified
          simp [key, hnone]
        | true => simp [key, hmemory, hp, rowKey_isSome hidentified]
  rw [hrows, List.flatMap_def, List.map_congr_left hsamples] at hperm
  exact hperm

/-! ## Accuracy -/

/-- The mean of some memories, if there are any. -/
def trueMean (memories : List ℚ) : Option ℚ := if memories = [] then none else some (memories.sum / memories.length)

/-- The figures of a tool, or of all of them, beside the memories of the jobs. -/
structure Accurate (jobs : Int) (avgMemoryGb maxMemoryGb : Option ℚ) (memories : List ℚ) : Prop where
  jobs : jobs = memories.length
  avg : Option.Rel Near avgMemoryGb (trueMean memories)
  max : Option.Rel Near maxMemoryGb memories.max?

theorem avg_meanOf (memories : List ℚ) : (meanOf memories).avg = trueMean memories := by
  unfold Mean.avg meanOf trueMean
  cases memories with
  | nil => rfl
  | cons memory memories =>
    have hpos : ¬((memory :: memories).length : ℤ) ≤ 0 := by
      rw [List.length_cons]
      omega
    rw [if_neg hpos, if_neg (List.cons_ne_nil _ _), Int.cast_natCast]

theorem near_rounded (top : Option ℚ) : Option.Rel Near (top.map quantizeRat) top := by
  cases top with
  | none => exact .none
  | some top => exact .some (quantizeRat_near top)

theorem trueMean_perm {memories memories' : List ℚ} (h : memories.Perm memories') :
    trueMean memories = trueMean memories' := by
  unfold trueMean
  rw [h.sum_eq, h.length_eq]
  by_cases hnil : memories = []
  · subst hnil
    rw [← h.nil_eq]
  · rw [if_neg hnil, if_neg fun hnil' => hnil (by rw [hnil'] at h; exact h.eq_nil)]

theorem max?_perm {memories memories' : List ℚ} (h : memories.Perm memories') : memories.max? = memories'.max? :=
  List.max?_eq_of_cofinal (fun a ha => ⟨a, h.mem_iff.1 ha, le_rfl⟩) fun b hb => ⟨b, h.mem_iff.2 hb, le_rfl⟩

theorem maxima_perm {figures figures' : List Figures} (h : figures.Perm figures') :
    (maxima figures).max? = (maxima figures').max? :=
  max?_perm (h.filterMap _)

/-- Figures that are merged from daily rows of some tools. -/
theorem accurate_merged (h : payloadOf (groupsOf tool rows).entries = .ok payload)
    (hpositive : ∀ item ∈ payload, ∃ mean, item.2.avgMemoryGb = some mean ∧ 0 < mean) (p : Str → Bool)
      {figures : List Figures}
    (hfigures : figures.Perm ((payload.filter fun item => p item.1.tool).map fun item => (dailyRow item).figures)) :
    Accurate (figures.map Figures.jobsCount).sum (flatMean .memory figures).avg (maxima figures).max?
      (memoriesWhere tool p rows) ∧ HaveJobs figures ∧ Full .memory figures := by
  have hsampled : List.Forall₂ Sampled ((payload.filter fun item => p item.1.tool).map fun item =>
      (dailyRow item).figures)
      ((payload.filter fun item => p item.1.tool).map fun item => samples tool rows item.1) := by
    refine List.forall₂_map_left_iff.2 (List.forall₂_map_right_iff.2 (List.forall₂_same.2 fun item hitem => ?_))
    exact payload_sampled h hpositive (List.mem_of_mem_filter hitem)
  have hmemories := samples_perm h p
  refine ⟨⟨?_, ?_, ?_⟩, ?_, ?_⟩
  · rw [(hfigures.map _).sum_eq, sampled_jobs hsampled, hmemories.length_eq]
  · rw [flatMean_perm hfigures, ← trueMean_perm hmemories, ← avg_meanOf]
    exact sampled_mean hsampled
  · rw [maxima_perm hfigures, sampled_max hsampled, ← max?_perm hmemories]
    exact near_rounded _
  · exact fun row hrow => sampled_haveJobs hsampled row (hfigures.mem_iff.1 hrow)
  · exact fun row hrow => sampled_full hsampled row (hfigures.mem_iff.1 hrow)

theorem ofTool_perm {fed : List StatRow} (hfed : fed.Perm (payload.map dailyRow)) (name : Str) :
    (ofTool name fed).Perm ((payload.filter fun item => decide (item.1.tool = name)).map fun item =>
      (dailyRow item).figures) := by
  have hperm := ((ofKey_perm hfed name : (ofKey rowTool name fed).Perm _)).map StatRow.figures
  rw [ofKey, ofKey, List.filter_map, List.map_map] at hperm
  refine hperm.trans (List.Perm.of_eq ?_)
  refine congrArg (List.map _) (List.filter_congr fun item _ => ?_)
  rw [Function.comp_apply, rowTool, decide_eq_decide, Option.some_inj]
  rfl

/-- Of the tools with jobs, the one with the most; the smallest name on ties. -/
structure Busiest (tool : DailySource ℚ → Str) (rows : List (DailySource ℚ)) (name : Str) : Prop where
  has_jobs : memoriesOf tool name rows ≠ []
  most : ∀ other, memoriesOf tool other rows ≠ [] →
    (memoriesOf tool other rows).length < (memoriesOf tool name rows).length ∨
    (memoriesOf tool other rows).length = (memoriesOf tool name rows).length ∧ name ≤ other

instance : IsTrans ToolItem ToolItem.before where
  trans a b c hab hbc := by
    unfold ToolItem.before at *
    rcases hab with hab | ⟨hab, hle⟩
    · rcases hbc with hbc | ⟨hbc, -⟩ <;> left <;> omega
    · rcases hbc with hbc | ⟨hbc, hle'⟩
      · left
        omega
      · exact .inr ⟨hab.trans hbc, hle.trans hle'⟩

instance : Std.Total ToolItem.before where
  total a b := by
    unfold ToolItem.before
    rcases lt_trichotomy a.jobs b.jobs with h | h | h
    · exact .inr (.inl h)
    · rcases le_total a.tool b.tool with hle | hle
      · exact .inl (.inr ⟨h, hle⟩)
      · exact .inr (.inr ⟨h.symm, hle⟩)
    · exact .inl (.inl h)

theorem head_before {items : List ToolItem} {first : ToolItem}
    (h : (items.insertionSort ToolItem.before).head? = some first) :
    first ∈ items ∧ ∀ item ∈ items, item = first ∨ first.before item := by
  have hsorted := List.pairwise_insertionSort ToolItem.before items
  have hmem : ∀ item, item ∈ items ↔ item ∈ items.insertionSort ToolItem.before := fun item =>
    (List.perm_insertionSort ToolItem.before items).mem_iff.symm
  cases hitems : items.insertionSort ToolItem.before with
  | nil =>
    rw [hitems] at h
    cases h
  | cons head tail =>
    rw [hitems] at h hsorted
    cases h
    refine ⟨(hmem _).2 (by rw [hitems]; exact List.mem_cons_self), fun item hitem => ?_⟩
    rw [hmem, hitems] at hitem
    exact (List.mem_cons.1 hitem).imp id (List.rel_of_pairwise_cons hsorted)

/-- The table holds the daily rows of some jobs, each with a positive mean of the memory. -/
structure FedBy (tool : DailySource ℚ → Str) (rows : List (DailySource ℚ)) (payload : List (DailyKey × DailyStat ℚ))
    (fed : List StatRow) : Prop where
  payload_ok : payloadOf (groupsOf tool rows).entries = .ok payload
  positive : ∀ item ∈ payload, ∃ mean, item.2.avgMemoryGb = some mean ∧ 0 < mean
  perm : fed.Perm (payload.map dailyRow)

namespace FedBy

variable {fed : List StatRow} (h : FedBy tool rows payload fed)
include h

theorem merged : Accurate ((fed.map StatRow.figures).map Figures.jobsCount).sum
    (flatMean .memory (fed.map StatRow.figures)).avg
    (maxima (fed.map StatRow.figures)).max? (memoriesWhere tool (fun _ => true) rows) ∧
      HaveJobs (fed.map StatRow.figures) ∧ Full .memory (fed.map StatRow.figures) := by
  refine accurate_merged h.payload_ok h.positive (fun _ => true) ?_
  have hmap := h.perm.map StatRow.figures
  rw [List.map_map] at hmap
  rw [List.filter_eq_self.2 fun _ _ => rfl]
  exact hmap

theorem haveJobs : HaveJobs (fed.map StatRow.figures) := h.merged.2.1

theorem merged_tool (name : Str) : Accurate (((ofTool name fed).map Figures.jobsCount).sum)
    (flatMean .memory (ofTool name fed)).avg (maxima (ofTool name fed)).max? (memoriesOf tool name rows) :=
  (accurate_merged h.payload_ok h.positive (fun other => decide (other = name)) (ofTool_perm h.perm name)).1

/-- The items are those of the tools of the daily rows. -/
theorem items_perm : (aggregateDailyStatRows fed).2.Perm
    ((fed.map StatRow.tool).dedup.map fun name => (rollupOf (ofTool name fed)).item name) :=
  (List.perm_insertionSort _ _).trans (breakdown_perm h.haveJobs (toolsOf_dedup fed))

theorem tools_perm : ((aggregateDailyStatRows fed).2.map ToolItem.tool).Perm (fed.map StatRow.tool).dedup := by
  have hmap := h.items_perm.map ToolItem.tool
  rw [List.map_map] at hmap
  exact hmap.trans (List.Perm.of_eq (List.map_id _))

theorem item_accurate {item : ToolItem} (hitem : item ∈ (aggregateDailyStatRows fed).2) :
    Accurate item.jobs item.avgMemoryGb item.maxMemoryGb (memoriesOf tool item.tool rows) := by
  obtain ⟨name, -, rfl⟩ := List.mem_map.1 (h.items_perm.mem_iff.1 hitem)
  have hjobs := ofTool_haveJobs h.haveJobs name
  have hname := h.merged_tool name
  rw [← rollupOf_mean hjobs, ← rollupOf_jobs hjobs, ← rollupOf_max hjobs] at hname
  exact hname

theorem mem_tools (name : Str) : name ∈ (aggregateDailyStatRows fed).2.map ToolItem.tool ↔
    memoriesOf tool name rows ≠ [] := by
  rw [h.tools_perm.mem_iff, (toolsOf_dedup fed).mem_iff]
  have hlength := (h.merged_tool name).jobs
  constructor
  · intro hrow hnil
    rw [hnil] at hlength
    exact (sum_jobs_pos (ofTool_haveJobs h.haveJobs name) (ofTool_ne_nil hrow)).ne' hlength
  · intro hne
    by_contra hnone
    have hnil : ofTool name fed = [] := ofTool_of_not_mem fun hmem => hnone (List.mem_map.1 hmem)
    rw [hnil] at hlength
    exact hne (List.eq_nil_of_length_eq_zero (Nat.cast_eq_zero.1 hlength.symm))

theorem totals_accurate : Accurate (aggregateDailyStatRows fed).1.completedJobs
    (aggregateDailyStatRows fed).1.avgMemoryGb
    (aggregateDailyStatRows fed).1.maxMemoryGb (memoriesWhere tool (fun _ => true) rows) := by
  obtain ⟨htotal, hjobs, hfull⟩ := h.merged
  have htools := toolsOf_dedup fed
  rw [← summary_jobs hjobs htools, ← avg_of_full hjobs htools hfull, ← summary_mean hjobs htools,
    ← summary_max hjobs htools] at htotal
  exact htotal

theorem busiestTool_eq_none : (aggregateDailyStatRows fed).1.busiestTool = none ↔
    memoriesWhere tool (fun _ => true) rows = [] := by
  have hitems : (aggregateDailyStatRows fed).1.busiestTool = none ↔ (aggregateDailyStatRows fed).2 = [] := by
    change (aggregateDailyStatRows fed).2.head?.map ToolItem.tool = none ↔ _
    rw [Option.map_eq_none_iff, List.head?_eq_none_iff]
  have hlength := h.merged.1.jobs
  rw [hitems]
  constructor
  · intro hnil
    have htools := h.tools_perm
    rw [hnil, List.map_nil] at htools
    have hfed : fed = [] := List.map_eq_nil_iff.1 ((List.dedup_eq_nil _).1 htools.nil_eq.symm)
    rw [hfed] at hlength
    exact List.eq_nil_of_length_eq_zero (Nat.cast_eq_zero.1 hlength.symm)
  · intro hnil
    have hfed : fed.map StatRow.figures = [] := by
      by_contra hne
      rw [hnil] at hlength
      exact (sum_jobs_pos h.haveJobs hne).ne' hlength
    rw [List.map_eq_nil_iff.1 hfed]
    rfl

theorem busiest {name : Str} (hname : (aggregateDailyStatRows fed).1.busiestTool = some name) :
    Busiest tool rows name := by
  obtain ⟨first, hfirst, rfl⟩ := Option.map_eq_some_iff.1 hname
  obtain ⟨hmem, hbefore⟩ := head_before hfirst
  have hsorted : ∀ item, item ∈ (aggregateDailyStatRows fed).2 ↔
      item ∈ breakdown (gather rowTool emptyRollup mergeRow ∅ fed) := fun item => (List.perm_insertionSort _ _).mem_iff
  have hjobs := (h.item_accurate ((hsorted first).2 hmem)).jobs
  refine ⟨(h.mem_tools _).1 (List.mem_map_of_mem ((hsorted first).2 hmem)), fun other hother => ?_⟩
  obtain ⟨item, hitem, rfl⟩ := List.mem_map.1 ((h.mem_tools other).2 hother)
  have hitemJobs := (h.item_accurate hitem).jobs
  rcases hbefore item ((hsorted item).1 hitem) with rfl | hlt | ⟨heq, hle⟩
  · exact .inr ⟨rfl, le_rfl⟩
  · left
    omega
  · right
    exact ⟨by omega, hle⟩

end FedBy

/-- **Accuracy.** With a positive rounded mean of the memory on each daily row, jobs are counted right by
tool and in total, means and maxima are within half a hundredth of those of the jobs, and the busiest tool
is the one with the most jobs. -/
theorem rollup_accuracy (tool : DailySource ℚ → Str) (rows : List (DailySource ℚ))
    (payload : List (DailyKey × DailyStat ℚ))
    (stats : AggregateStats) (h : aggregate (fun row => .ok (tool row)) rows = .ok (payload, stats))
    (hpositive : ∀ item ∈ payload, ∃ mean, item.2.avgMemoryGb = some mean ∧ 0 < mean)
    (fed : List StatRow) (hfed : fed.Perm (payload.map dailyRow)) :
    let totals := (aggregateDailyStatRows fed).1
    let items := (aggregateDailyStatRows fed).2
    Accurate totals.completedJobs totals.avgMemoryGb totals.maxMemoryGb (memoriesWhere tool (fun _ => true) rows) ∧
      (∀ item ∈ items, Accurate item.jobs item.avgMemoryGb item.maxMemoryGb (memoriesOf tool item.tool rows)) ∧
      (items.map ToolItem.tool).Nodup ∧ (∀ name, name ∈ items.map ToolItem.tool ↔ memoriesOf tool name rows ≠ []) ∧
      (totals.busiestTool = none ↔ memoriesWhere tool (fun _ => true) rows = []) ∧
      ∀ name, totals.busiestTool = some name → Busiest tool rows name := by
  have hpayload : payloadOf (groupsOf tool rows).entries = .ok payload := by
    obtain ⟨payload', haggregate, hpayload, -⟩ := aggregate_total tool rows
    cases Except.ok.inj (haggregate.symm.trans h)
    exact hpayload
  have hfedBy : FedBy tool rows payload fed := ⟨hpayload, hpositive, hfed⟩
  exact ⟨hfedBy.totals_accurate, fun item hitem => hfedBy.item_accurate hitem,
    hfedBy.tools_perm.nodup_iff.2 (List.nodup_dedup _), hfedBy.mem_tools,
      hfedBy.busiestTool_eq_none, fun name => hfedBy.busiest⟩

deriving instance DecidableEq for AggregateStats

/-- Two jobs of 1/3 and 1/3 + 1 GiB on one day, and one of 2 GiB on the next. -/
def threeJobs : List (DailySource ℚ) :=
  [plainJob 0 1 (some (1 / 3)), plainJob 0 1 (some (4 / 3)), plainJob 1 1 (some 2)]

def threeJobsRows : List (DailyKey × DailyStat ℚ) :=
  [(⟨0, 1, ['a']⟩, ⟨2, some (83 / 100), some (133 / 100), some (83 / 100), some 0, some 0⟩),
    (⟨1, 1, ['a']⟩, ⟨1, some 2, some 2, some 2, some 0, some 0⟩)]

theorem rollup_accuracy_threeJobs : Accurate (aggregateDailyStatRows (threeJobsRows.map dailyRow)).1.completedJobs
    (aggregateDailyStatRows (threeJobsRows.map dailyRow)).1.avgMemoryGb
    (aggregateDailyStatRows (threeJobsRows.map dailyRow)).1.maxMemoryGb
      (memoriesWhere (fun _ => ['a']) (fun _ => true) threeJobs) := by
  have haggregate : aggregate (fun _ => .ok ['a']) threeJobs =
      .ok (threeJobsRows, ⟨3, 0, 0, 3, 3, 3⟩) := by decide +kernel
  have hpositive : ∀ item ∈ threeJobsRows, ∃ mean, item.2.avgMemoryGb = some mean ∧ 0 < mean := by
    intro item hitem
    simp only [threeJobsRows, List.mem_cons, List.not_mem_nil, or_false] at hitem
    rcases hitem with rfl | rfl
    · exact ⟨83 / 100, rfl, by norm_num⟩
    · exact ⟨2, rfl, by norm_num⟩
  exact (rollup_accuracy (fun _ => ['a']) threeJobs threeJobsRows _ haggregate hpositive _ (List.Perm.refl _)).1

end SlurmWeb.Analytics
