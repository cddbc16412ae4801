import SlurmWeb.Lib.Dict
import SlurmWeb.Lib.Except
import SlurmWeb.Lib.Lists
import SlurmWeb.Lib.Runs
import SlurmWeb.Lib.UtcTime

/-!
# Hot intervals of nodes (slurmweb/metrics/hotspots.py)

The samples of a metric of a node are sorted by time and cut into events: a sample below the threshold ends
one, and so does a gap of more than two steps.

| here | there |
| --- | --- |
| `step` | the body of the loop of `_extract_events` (:37) |
| `extractEvents` | `_extract_events` (:22) |
| `buildHotspotEventsFromMetricSeries` | `build_hotspot_events_from_metric_series` (:13) |

Values are numbers of a linear order or NaN, `round1` stands for `round(.., 1)`, and a number of
milliseconds has its exact time, as `timestamp_ms / 1000` has within 2^33 seconds of the epoch.

* `scan_between` — the loop makes an event of every hot block.
* `hotspot_events` — one event for each maximal run of hot samples, the latest first.
-/

namespace SlurmWeb.Hotspots

open Strings IsoTime Runs

/-- A float. -/
inductive Usage (α : Type)
  | nan
  | num (a : α)

/-- `[timestamp_ms, value]` -/
structure Sample (α : Type) where
  timestampMs : Int
  value : Usage α

structure Event (α : Type) where
  node : Str
  metric : Str
  start : Str
  end_ : Str
  durationSeconds : Int
  peakUsage : α
deriving DecidableEq

inductive Error
  | stepNotPositive
  | yearOutOfRange
deriving DecidableEq

/-- `event_start`, `event_end` and `peak`, which are set and cleared together. -/
structure OpenEvent (α : Type) where
  start : Datetime
  end_ : Datetime
  peak : α

structure LoopState (α : Type) where
  events : List (Event α)
  event : Option (OpenEvent α)
  previous : Option Datetime

/-- `datetime.fromtimestamp(timestamp_ms / 1000, tz=timezone.utc)` -/
def Sample.time {α : Type} (s : Sample α) : Option Datetime := fromMicroseconds (1000 * s.timestampMs)

/-- `int((b - a).total_seconds())` -/
def wholeSeconds (a b : Datetime) : Int := (b.instant - a.instant).tdiv 1000000

theorem time_eq_some {α : Type} {s : Sample α} {d : Datetime} (h : s.time = some d) :
    d.instant = 1000 * s.timestampMs ∧ d.offset = 0 := fromMicroseconds_eq_some h

theorem wholeSeconds_time {α : Type} {a b : Sample α} {d e : Datetime} (ha : a.time = some d) (hb : b.time = some e) :
    wholeSeconds d e = (b.timestampMs - a.timestampMs).tdiv 1000 := by
  have hscale : (1000000 : Int) = 1000 * 1000 := rfl
  rw [wholeSeconds, (time_eq_some ha).1, (time_eq_some hb).1, ← mul_sub, hscale]
  exact Int.mul_tdiv_mul_of_pos _ _ (by decide)

variable {α : Type} [LinearOrder α]

/-- `value >= threshold`, with the value. -/
def Usage.hot (threshold : α) : Usage α → Option α
  | .nan => none
  | .num a => if threshold ≤ a then some a else none

section
variable (threshold : α) (stepSeconds : Int) (round1 : α → α) (metric node : Str)

def eventOf (e : OpenEvent α) : Event α where
  node := node
  metric := metric
  start := e.start.isoformat
  end_ := e.end_.isoformat
  durationSeconds := max (wholeSeconds e.start e.end_ + stepSeconds) stepSeconds
  peakUsage := round1 e.peak

/-- `events.append(..)`, and the event is cleared. -/
def close (s : LoopState α) : LoopState α :=
  match s.event with
  | none => s
  | some e => { s with events := s.events ++ [eventOf stepSeconds round1 metric node e], event := none }

/-- A hot sample starts an event, or is its last one so far (:58). -/
def enter (ts : Datetime) (hot : Option α) (e : Option (OpenEvent α)) : Option (OpenEvent α) :=
  match hot, e with
  | some value, none => some ⟨ts, ts, value⟩
  | some value, some e => some { e with end_ := ts, peak := max e.peak value }
  | none, e => e

/-- One turn of the loop (:37); `last` is `index == len(ordered_values) - 1`. A hot sample has set `event_end`
when the event is closed. -/
def step (last : Bool) (sample : Sample α) (s : LoopState α) : Except Error (LoopState α) :=
  match sample.time with
  | none => .error .yearOutOfRange
  | some ts =>
    let gapBreak := s.previous.any fun previous => decide (2 * stepSeconds < wholeSeconds previous ts)
    let hot := sample.value.hot threshold
    let s := if gapBreak then close stepSeconds round1 metric node s else s
    let s := { s with event := enter ts hot s.event }
    let s := if hot.isNone || last then close stepSeconds round1 metric node s else s
    .ok { s with previous := some ts }

def scan : List (Sample α) → LoopState α → Except Error (LoopState α)
  | [], s => .ok s
  | sample :: rest, s => do
    let s ← step threshold stepSeconds round1 metric node rest.isEmpty sample s
    scan rest s

/-- `sorted(values, key=lambda item: item[0])` -/
def ordered (values : List (Sample α)) : List (Sample α) := values.insertionSort fun a b =>
  a.timestampMs ≤ b.timestampMs

/-- The loop over the samples of a node (:30). -/
def nodeEvents (values : List (Sample α)) : Except Error (List (Event α)) := do
  let s ← scan threshold stepSeconds round1 metric node (ordered values) ⟨[], none, none⟩
  return s.events

/-- `_extract_events` (:22) -/
def extractEvents (seriesByNode : Dict Str (List (Sample α))) : Except Error (List (Event α)) := do
  let events ← seriesByNode.entries.mapM fun entry => nodeEvents threshold stepSeconds round1 metric entry.1 entry.2
  return events.flatten

end

/-- Python's order of the tuples of `start`, `duration_seconds` and `peak_usage`. -/
def keyLe (a b : Event α) : Prop :=
  a.start < b.start ∨ a.start = b.start ∧
    (a.durationSeconds < b.durationSeconds ∨ a.durationSeconds = b.durationSeconds ∧ a.peakUsage ≤ b.peakUsage)

instance : DecidableRel (@keyLe α _) := fun _ _ => inferInstanceAs (Decidable (_ ∨ _ ∧ (_ ∨ _ ∧ _)))

/-- `build_hotspot_events_from_metric_series` (:13) -/
def buildHotspotEventsFromMetricSeries (round1 : α → α)
    (metrics : Dict Str (Dict Str (List (Sample α)))) (threshold : α)
    (stepSeconds limit : Int) : Except Error (List (Event α)) := do
  if stepSeconds ≤ 0 then throw .stepNotPositive
  let events ← metrics.entries.mapM fun entry => extractEvents threshold stepSeconds round1 entry.1 entry.2
  return (events.flatten.insertionSort fun a b => keyLe b a).take limit.toNat

/-! ## The loop -/

section
variable (threshold : α) (stepSeconds : Int)

def isHot (s : Sample α) : Bool := (s.value.hot threshold).isSome

/-- No gap between two samples. -/
def isNear (a b : Sample α) : Bool := decide ((b.timestampMs - a.timestampMs).tdiv 1000 ≤ 2 * stepSeconds)

/-- The event of a block after one more sample. -/
def extend (e : Option (OpenEvent α)) (s : Sample α) : Option (OpenEvent α) :=
  match s.time with
  | none => e
  | some ts => enter ts (s.value.hot threshold) e

def openOf (block : List (Sample α)) : Option (OpenEvent α) := block.foldl (extend threshold) none

variable (round1 : α → α) (metric node : Str)

/-- The events a block ends with. -/
def emit (block : List (Sample α)) : List (Event α) :=
  (openOf threshold block).toList.map (eventOf stepSeconds round1 metric node)

end

variable {threshold : α} {stepSeconds : Int} {round1 : α → α} {metric node : Str}

theorem openOf_append (block : List (Sample α)) {b : Sample α} {ts : Datetime} (hb : b.time = some ts) :
    openOf threshold (block ++ [b]) = enter ts (b.value.hot threshold) (openOf threshold block) := by
  rw [openOf, List.foldl_append, List.foldl_cons, List.foldl_nil, extend, hb, ← openOf]

theorem openOf_single {b : Sample α} {ts : Datetime} (hb : b.time = some ts) :
    openOf threshold [b] = enter ts (b.value.hot threshold) none := openOf_append [] hb

theorem close_eq (events : List (Event α)) (block : List (Sample α)) (previous : Option Datetime) :
    close stepSeconds round1 metric node ⟨events, openOf threshold block, previous⟩ =
      ⟨events ++ emit threshold stepSeconds round1 metric node block, none, previous⟩ := by
  rw [emit, close]
  cases openOf threshold block with
  | none => simp
  | some e => rfl

/-- The state between two samples: `block` ends with the sample before. -/
def between (threshold : α) (events : List (Event α)) (block : List (Sample α)) (ts : Datetime) : LoopState α :=
  ⟨events, openOf threshold block, some ts⟩

/-- The state after the last sample. -/
def ended (events : List (Event α)) (ts : Datetime) : LoopState α := ⟨events, none, some ts⟩

/-- A sample linked to the one before continues its block. -/
theorem step_linked {a b : Sample α} {ts ts' : Datetime} (ha : a.time = some ts) (hb : b.time = some ts')
    (h : linked (isHot threshold) (isNear stepSeconds) a b = true) (events : List (Event α))
      (block : List (Sample α)) (last : Bool) :
    step threshold stepSeconds round1 metric node last b (between threshold events block ts) =
      .ok (if last then ended (events ++ emit threshold stepSeconds round1 metric node (block ++ [b])) ts'
        else between threshold events (block ++ [b]) ts') := by
  obtain ⟨-, hhot, hnear⟩ := linked_iff.1 h
  have hgap : ¬ 2 * stepSeconds < wholeSeconds ts ts' := by
    rw [wholeSeconds_time ha hb]
    exact not_lt.2 (of_decide_eq_true hnear)
  have hsome : (b.value.hot threshold).isNone = false := by
    rw [isHot] at hhot
    simpa using hhot
  rw [step, hb]
  simp only [between, Option.any_some, hgap, decide_false, Bool.false_eq_true, if_false, hsome, Bool.false_or,
    ← openOf_append block hb]
  cases last with
  | false => rfl
  | true => simp only [if_true, close_eq, ended]

theorem emit_cold {block : List (Sample α)} (h : openOf threshold block = none) :
    emit threshold stepSeconds round1 metric node block = [] := by
  rw [emit, h]
  rfl

/-- A sample that is not linked to the one before ends its block. -/
theorem step_unlinked {a b : Sample α} {ts ts' : Datetime} (ha : a.time = some ts) (hb : b.time = some ts')
    (h : linked (isHot threshold) (isNear stepSeconds) a b = false) (events : List (Event α)) {block : List (Sample α)}
    (hcold : isHot threshold a = false → openOf threshold block = none) (last : Bool) :
    step threshold stepSeconds round1 metric node last b (between threshold events block ts) =
      .ok (if last then ended (events ++ emit threshold stepSeconds round1 metric node block ++
          emit threshold stepSeconds round1 metric node [b]) ts'
        else between threshold (events ++ emit threshold stepSeconds round1 metric node block) [b] ts') := by
  have hgap : decide (2 * stepSeconds < wholeSeconds ts ts') = !isNear stepSeconds a b := by
    rw [wholeSeconds_time ha hb, isNear, ← decide_not]
    exact decide_eq_decide.2 not_le.symm
  rw [step, hb]
  simp only [between, Option.any_some, hgap]
  cases hnear : isNear stepSeconds a b with
  | false =>
    -- the gap ends the block, and the sample starts afresh
    simp only [Bool.not_false, if_true, close_eq, ← openOf_single hb]
    cases hhot : b.value.hot threshold with
    | none =>
      have hnone : openOf threshold [b] = none := by rw [openOf_single hb, hhot]; rfl
      cases last <;> simp [hnone, ended, emit_cold hnone]
    | some value =>
      cases last <;> simp [ended]
  | true =>
    simp only [Bool.not_true, Bool.false_eq_true, if_false]
    have hends : openOf threshold block = none ∨ b.value.hot threshold = none := by
      by_contra hboth
      rw [not_or] at hboth
      have hhot : isHot threshold a = true := by
        by_contra hcontra
        exact hboth.1 (hcold (by simpa using hcontra))
      have hhot' : isHot threshold b = true := Option.isSome_iff_ne_none.2 hboth.2
      rw [linked_iff.2 ⟨hhot, hhot', hnear⟩] at h
      cases h
    cases hhot : b.value.hot threshold with
    | none =>
      have hnone : openOf threshold [b] = none := by rw [openOf_single hb, hhot]; rfl
      have hsame : enter ts' none (openOf threshold block) = openOf threshold block := by
        cases openOf threshold block <;> rfl
      simp only [hsame, Option.isNone_none, Bool.true_or, if_true, close_eq]
      cases last <;> simp [ended, emit_cold hnone, hnone]
    | some value =>
      have hnone : openOf threshold block = none := hends.resolve_right (by simp [hhot])
      have hstart : enter ts' (some value) (openOf threshold block) = openOf threshold [b] := by
        rw [openOf_single hb, hhot, hnone]
      simp only [hstart, emit_cold hnone, List.append_nil]
      cases last with
      | false => simp
      | true => simp [close_eq, ended]

/-- **The loop makes an event of every hot block.** -/
theorem scan_between {l : List (Sample α)} (hl : l ≠ []) (hrange : ∀ s ∈ l, s.time.isSome = true)
    {a : Sample α} {ts : Datetime} (ha : a.time = some ts) (events : List (Event α)) {block : List (Sample α)}
    (hcold : isHot threshold a = false → openOf threshold block = none) :
    ∃ s, scan threshold stepSeconds round1 metric node l (between threshold events block ts) = .ok s ∧
      s.events = events ++ (grow (linked (isHot threshold) (isNear stepSeconds)) block a l).flatMap
        (emit threshold stepSeconds round1 metric node) := by
  induction l generalizing a ts events block with
  | nil => exact absurd rfl hl
  | cons b l ih =>
    obtain ⟨ts', hb⟩ := Option.isSome_iff_exists.1 (hrange b List.mem_cons_self)
    have hrest : ∀ s ∈ l, s.time.isSome = true := fun s hs => hrange s (List.mem_cons_of_mem _ hs)
    rw [scan, grow]
    cases hlink : linked (isHot threshold) (isNear stepSeconds) a b with
    | true =>
      rw [step_linked ha hb hlink, Except.ok_bind, if_pos rfl]
      have hhot := (linked_iff.1 hlink).2.1
      cases l with
      | nil => exact ⟨_, rfl, by simp [ended, grow]⟩
      | cons c l =>
        refine ih (by simp) hrest hb events fun hcontra => ?_
        rw [hhot] at hcontra
        cases hcontra
    | false =>
      rw [step_unlinked ha hb hlink events hcold, Except.ok_bind]
      simp only [Bool.false_eq_true, if_false]
      cases l with
      | nil => exact ⟨_, rfl, by simp [ended, grow]⟩
      | cons c l =>
        have hstart : isHot threshold b = false → openOf threshold [b] = none := by
          intro hcold
          rw [isHot, Option.isSome_eq_false_iff, Option.isNone_iff_eq_none] at hcold
          rw [openOf_single hb, hcold]
          rfl
        obtain ⟨s, hs, hevents⟩ := ih (by simp) hrest hb
          (events ++ emit threshold stepSeconds round1 metric node block) hstart
        exact ⟨s, hs, by rw [hevents, List.flatMap_cons, List.append_assoc]⟩

/-- The events of a node are those of the blocks of its samples. -/
theorem nodeEvents_eq {values : List (Sample α)} (hrange : ∀ s ∈ values, s.time.isSome = true) :
    nodeEvents threshold stepSeconds round1 metric node values =
      .ok ((blocks (isHot threshold) (isNear stepSeconds) (ordered values)).flatMap
        (emit threshold stepSeconds round1 metric node)) := by
  have hordered : ∀ s ∈ ordered values, s.time.isSome = true := by
    intro s hs
    exact hrange s ((List.perm_insertionSort _ _).mem_iff.1 hs)
  rw [nodeEvents, blocks]
  cases hsorted : ordered values with
  | nil => rfl
  | cons a l =>
    rw [hsorted] at hordered
    obtain ⟨ts, ha⟩ := Option.isSome_iff_exists.1 (hordered a List.mem_cons_self)
    have hcold : a.value.hot threshold = none → openOf threshold [a] = none := by
      intro h
      rw [openOf_single ha, h]
      rfl
    have hfirst : ∀ last : Bool, step threshold stepSeconds round1 metric node last a ⟨[], none, none⟩ =
        .ok (if last then ended (emit threshold stepSeconds round1 metric node [a]) ts else between
          threshold [] [a] ts) := by
      intro last
      rw [step, ha]
      simp only [Option.any_none, Bool.false_eq_true, if_false, ← openOf_single ha]
      cases hhot : a.value.hot threshold with
      | none => cases last <;> simp [hcold hhot, ended, between, emit_cold (hcold hhot), close]
      | some value => cases last <;> simp [ended, between, close_eq]
    rw [scan, hfirst, Except.ok_bind, splitBy_eq_grow]
    cases l with
    | nil => simp [scan, ended, grow]
    | cons b l =>
      obtain ⟨s, hs, hevents⟩ := scan_between (by simp) (fun s hs => hordered s (List.mem_cons_of_mem _ hs)) ha []
        fun hcontra => hcold (by simpa [isHot] using hcontra)
      rw [List.isEmpty_cons, if_neg Bool.false_ne_true, hs, Except.ok_bind, hevents, List.nil_append]
      rfl

/-! ## What an event says -/

/-- The text is the time of the sample. -/
def Sample.At (s : Sample α) (text : Str) : Prop := ∃ d, s.time = some d ∧ text = d.isoformat

section
variable (stepSeconds : Int) (round1 : α → α) (metric node : Str)

/-- The event of a run: from its first sample to its last one, a step more, with its largest value. -/
structure Describes (run : List (Sample α)) (e : Event α) : Prop where
  node_eq : e.node = node
  metric_eq : e.metric = metric
  bounds : ∃ first last, run.head? = some first ∧ run.getLast? = some last ∧ first.At e.start ∧ last.At e.end_ ∧
    e.durationSeconds = (last.timestampMs - first.timestampMs) / 1000 + stepSeconds
  peak : ∃ p, e.peakUsage = round1 p ∧ IsGreatest {v | ∃ s ∈ run, s.value = .num v} p

end

theorem hot_eq_some {u : Usage α} {a : α} (h : u.hot threshold = some a) : u = .num a := by
  cases u with
  | nan => cases h
  | num b =>
    rw [Usage.hot] at h
    split at h
    · cases h
      rfl
    · cases h

theorem openOf_hot {run : List (Sample α)} (hne : run ≠ []) (hrange : ∀ s ∈ run, s.time.isSome = true)
    (hhot : ∀ s ∈ run, isHot threshold s = true) : ∃ e first last, openOf threshold run = some e ∧
      run.head? = some first ∧ run.getLast? = some last ∧ first.time = some e.start ∧ last.time = some e.end_ ∧
      IsGreatest {v | ∃ s ∈ run, s.value = .num v} e.peak := by
  induction run using List.reverseRecOn with
  | nil => exact absurd rfl hne
  | append_singleton run b ih =>
    obtain ⟨ts, hb⟩ := Option.isSome_iff_exists.1 (hrange b (by simp))
    obtain ⟨v, hv⟩ := Option.isSome_iff_exists.1 (hhot b (by simp))
    have hvalue := hot_eq_some hv
    rw [openOf_append run hb, hv]
    rcases List.eq_nil_or_concat run with rfl | ⟨front, c, hrun⟩
    · refine ⟨_, b, b, rfl, rfl, rfl, hb, hb, ⟨b, by simp, hvalue⟩, ?_⟩
      rintro w ⟨s, hs, hw⟩
      rw [List.nil_append, List.mem_singleton] at hs
      subst hs
      rw [hvalue] at hw
      cases hw
      exact le_rfl
    · have hrunne : run ≠ [] := by simp [hrun]
      obtain ⟨e, first, last, he, hfirst, hlast, hstart, hend, ⟨t, ht, hpeak⟩, hgreatest⟩ := ih hrunne
        (fun s hs => hrange s (by simp [hs])) fun s hs => hhot s (by simp [hs])
      rw [he]
      refine ⟨_, first, b, rfl, ?_, by simp, hstart, hb, ?_, ?_⟩
      · rw [List.head?_append_of_ne_nil _ hrunne, hfirst]
      · rcases max_choice e.peak v with hmax | hmax
        · exact ⟨t, by simp [ht], by simpa [hmax] using hpeak⟩
        · exact ⟨b, by simp, by simpa [hmax] using hvalue⟩
      · rintro w ⟨s, hs, hw⟩
        rcases List.mem_append.1 hs with hs | hs
        · exact (hgreatest ⟨s, hs, hw⟩).trans (le_max_left _ _)
        · rw [List.mem_singleton] at hs
          subst hs
          rw [hvalue] at hw
          cases hw
          exact le_max_right _ _

/-- A hot block of sorted samples ends with one event, which describes it. -/
theorem emit_hot {run : List (Sample α)} (hne : run ≠ [])
    (hrange : ∀ s ∈ run, s.time.isSome = true) (hhot : ∀ s ∈ run, isHot threshold s = true)
    (hsorted : run.Pairwise fun a b => a.timestampMs ≤ b.timestampMs) :
    ∃ e, emit threshold stepSeconds round1 metric node run = [e] ∧ Describes stepSeconds round1 metric node run e := by
  obtain ⟨e, first, last, he, hfirst, hlast, hstart, hend, hpeak⟩ := openOf_hot hne hrange hhot
  refine ⟨eventOf stepSeconds round1 metric node e, by rw [emit, he]; rfl, rfl, rfl, ?_, e.peak, rfl, hpeak⟩
  refine ⟨first, last, hfirst, hlast, ⟨_, hstart, rfl⟩, ⟨_, hend, rfl⟩, ?_⟩
  have hle : first.timestampMs ≤ last.timestampMs := by
    cases run with
    | nil => exact absurd rfl hne
    | cons a run =>
      cases hfirst
      rcases List.mem_cons.1 (List.mem_of_mem_getLast? hlast) with rfl | hmem
      · exact le_rfl
      · exact (List.pairwise_cons.1 hsorted).1 last hmem
  have hdiv : (last.timestampMs - first.timestampMs).tdiv 1000 = (last.timestampMs - first.timestampMs) / 1000 :=
    Int.tdiv_eq_ediv_of_nonneg (by omega)
  simp only [eventOf, wholeSeconds_time hstart hend, hdiv]
  omega

section
variable (threshold : α) (stepSeconds : Int) (round1 : α → α)

/-- One event for each maximal run of the sorted samples, in their order. Every hot sample is in exactly one
run, and no other sample is in one. -/
def Reports (metric node : Str) (values : List (Sample α)) (events : List (Event α)) : Prop :=
  ∃ runs : List (Nat × List (Sample α)), runs.Nodup ∧
    (∀ i run, (i, run) ∈ runs ↔ MaximalRun (isHot threshold) (isNear stepSeconds) (ordered values) i run) ∧
    (∀ n s, (ordered values)[n]? = some s → isHot threshold s = true →
      ∃! p, p ∈ runs ∧ p.1 ≤ n ∧ n < p.1 + p.2.length) ∧
    (∀ n s, (ordered values)[n]? = some s → isHot threshold s = false → ∀ p ∈ runs,
      ¬ (p.1 ≤ n ∧ n < p.1 + p.2.length)) ∧
    List.Forall₂ (fun p e => Describes stepSeconds round1 metric node p.2 e) runs events

end

omit [LinearOrder α] in
theorem ordered_pairwise (values : List (Sample α)) :
    (ordered values).Pairwise fun a b => a.timestampMs ≤ b.timestampMs := by
  have : Std.Total fun a b : Sample α => a.timestampMs ≤ b.timestampMs := ⟨fun a b => le_total _ _⟩
  have : IsTrans (Sample α) fun a b => a.timestampMs ≤ b.timestampMs := ⟨fun _ _ _ h h' => le_trans h h'⟩
  exact List.pairwise_insertionSort _ _

/-- The events of the hot blocks are those of the runs. -/
theorem describes_runs {bs : List (List (Sample α))} (k : Nat)
    (hrange : ∀ b ∈ bs, ∀ s ∈ b, s.time.isSome = true)
    (hsorted : ∀ b ∈ bs, b.Pairwise fun a b => a.timestampMs ≤ b.timestampMs)
    (hchain : ∀ b ∈ bs, b ≠ [] ∧ b.IsChain fun x y => linked (isHot threshold) (isNear stepSeconds) x y = true) :
    List.Forall₂ (fun p e => Describes stepSeconds round1 metric node p.2 e)
      ((offsets k bs).filter fun p => p.2.all (isHot threshold))
        (bs.flatMap (emit threshold stepSeconds round1 metric node)) := by
  induction bs generalizing k with
  | nil => exact .nil
  | cons b bs ih =>
    have hrest := ih (k + b.length) (fun c hc => hrange c (List.mem_cons_of_mem _ hc))
      (fun c hc => hsorted c (List.mem_cons_of_mem _ hc)) fun c hc => hchain c (List.mem_cons_of_mem _ hc)
    obtain ⟨hne, hlinked⟩ := hchain b List.mem_cons_self
    rw [offsets, List.flatMap_cons]
    rcases hot_or_single hlinked hne with hhot | ⟨a, rfl, hcold⟩
    · obtain ⟨e, hemit, hdescribes⟩ := @emit_hot _ _ threshold stepSeconds round1 metric node _ hne
        (hrange b List.mem_cons_self) hhot (hsorted b List.mem_cons_self)
      have hall : (k, b).2.all (isHot threshold) = true := List.all_eq_true.2 hhot
      rw [List.filter_cons, if_pos hall, hemit]
      exact .cons hdescribes hrest
    · obtain ⟨ts, ha⟩ := Option.isSome_iff_exists.1 (hrange [a] List.mem_cons_self a (by simp))
      have hnone : openOf threshold [a] = none := by
        rw [isHot, Option.isSome_eq_false_iff, Option.isNone_iff_eq_none] at hcold
        rw [openOf_single ha, hcold]
        rfl
      rw [List.filter_cons, if_neg (by simp [hcold]), emit_cold hnone]
      exact hrest

theorem nodeEvents_reports {values : List (Sample α)} (hrange : ∀ s ∈ values, s.time.isSome = true) :
    ∃ events, nodeEvents threshold stepSeconds round1 metric node values = .ok events ∧
      Reports threshold stepSeconds round1 metric node values events := by
  refine ⟨_, nodeEvents_eq hrange, runs (isHot threshold) (isNear stepSeconds) (ordered values), runs_nodup,
    fun _ _ => mem_runs_iff, fun _ _ => existsUnique_run, ?_, ?_⟩
  · rintro n s hs hcold p hp ⟨hle, hlt⟩
    rw [hot_of_run hs hp hle hlt] at hcold
    cases hcold
  · have hsub : ∀ b ∈ blocks (isHot threshold) (isNear stepSeconds) (ordered values), b.Sublist (ordered values) := by
      intro b hb
      conv_rhs => rw [← List.flatten_splitBy (linked (isHot threshold) (isNear stepSeconds)) (ordered values)]
      exact List.sublist_flatten_of_mem hb
    refine describes_runs 0 ?_ ?_ ?_
    · intro b hb s hs
      exact hrange s ((List.perm_insertionSort _ _).mem_iff.1 ((hsub b hb).subset hs))
    · intro b hb
      exact (ordered_pairwise values).sublist (hsub b hb)
    · intro b hb
      exact ⟨List.ne_nil_of_mem_splitBy hb, List.isChain_of_mem_splitBy hb⟩

/-! ## The answer -/

/-- The series of a metrics map. -/
def series (metrics : Dict Str (Dict Str (List (Sample α)))) : List (Str × Str × List (Sample α)) :=
  metrics.entries.flatMap fun m => m.2.entries.map fun n => (m.1, n.1, n.2)

/-- Later events come first, by their texts and by the times these stand for. -/
def Later (a b : Event α) : Prop :=
  b.start ≤ a.start ∧ ∀ s t : Sample α, s.At a.start → t.At b.start → t.timestampMs ≤ s.timestampMs

instance : IsTrans (Event α) fun a b => keyLe b a := by
  refine ⟨fun a b c hab hbc => ?_⟩
  unfold keyLe at *
  rcases hbc with h | ⟨h, hbc⟩
  · rcases hab with h' | ⟨h', -⟩
    · exact .inl (h.trans h')
    · exact .inl (h' ▸ h)
  · rcases hab with h' | ⟨h', hab⟩
    · exact .inl (h ▸ h')
    · refine .inr ⟨h.trans h', ?_⟩
      rcases hbc with h | ⟨h, hbc⟩
      · rcases hab with h' | ⟨h', -⟩
        · exact .inl (h.trans h')
        · exact .inl (h' ▸ h)
      · rcases hab with h' | ⟨h', hab⟩
        · exact .inl (h ▸ h')
        · exact .inr ⟨h.trans h', hbc.trans hab⟩

instance : Std.Total fun a b : Event α => keyLe b a := by
  refine ⟨fun a b => ?_⟩
  unfold keyLe
  rcases lt_trichotomy a.start b.start with h | h | h
  · exact .inr (.inl h)
  · rcases lt_trichotomy a.durationSeconds b.durationSeconds with h' | h' | h'
    · exact .inr (.inr ⟨h, .inl h'⟩)
    · rcases le_total a.peakUsage b.peakUsage with h'' | h''
      · exact .inr (.inr ⟨h, .inr ⟨h', h''⟩⟩)
      · exact .inl (.inr ⟨h.symm, .inr ⟨h'.symm, h''⟩⟩)
    · exact .inl (.inr ⟨h.symm, .inl h'⟩)
  · exact .inl (.inl h)

theorem later_of_keyLe {a b : Event α} (h : keyLe b a) : Later a b := by
  have hle : b.start ≤ a.start := h.elim le_of_lt fun h => h.1.le
  refine ⟨hle, ?_⟩
  rintro s t ⟨d, hd, ha⟩ ⟨e, he, hb⟩
  rw [ha, hb, isoformat_le_iff (time_eq_some he).2 (time_eq_some hd).2, (time_eq_some hd).1, (time_eq_some he).1] at hle
  omega

/-- The events of the series, in the order of the answer. -/
theorem exists_events {metrics : Dict Str (Dict Str (List (Sample α)))} (hstep : 0 < stepSeconds)
    (hrange : ∀ entry ∈ series metrics, ∀ s ∈ entry.2.2, s.time.isSome = true) :
    ∃ events groups : List (List (Event α)),
      (∀ limit : Int, buildHotspotEventsFromMetricSeries round1 metrics threshold stepSeconds limit =
        .ok ((events.flatten.insertionSort fun a b => keyLe b a).take limit.toNat)) ∧
      events.flatten = groups.flatten ∧
      List.Forall₂ (fun entry es => Reports threshold stepSeconds round1 entry.1 entry.2.1 entry.2.2 es)
        (series metrics) groups := by
  have hnodes : ∀ m ∈ metrics.entries, ∃ groups,
      extractEvents threshold stepSeconds round1 m.1 m.2 = .ok groups.flatten ∧
        List.Forall₂ (fun n es => Reports threshold stepSeconds round1 m.1 n.1 n.2 es) m.2.entries groups := by
    intro m hm
    have hreturns : ∀ n ∈ m.2.entries, ∃ es, nodeEvents threshold stepSeconds round1 m.1 n.1 n.2 = .ok es ∧
        Reports threshold stepSeconds round1 m.1 n.1 n.2 es := fun n hn =>
      nodeEvents_reports (hrange (m.1, n.1, n.2) (List.mem_flatMap.2 ⟨m, hm, List.mem_map.2 ⟨n, hn, rfl⟩⟩))
    obtain ⟨groups, hgroups⟩ := List.exists_forall₂ hreturns
    refine ⟨groups, ?_, hgroups.imp fun _ _ h => h.2⟩
    rw [extractEvents, Except.mapM_eq_ok.2 (hgroups.imp fun _ _ h => h.1)]
    rfl
  obtain ⟨all, hall⟩ := List.exists_forall₂ hnodes
  refine ⟨all.map List.flatten, all.flatten, ?_, List.flatten_flatten.symm, ?_⟩
  · intro limit
    have hmetrics : metrics.entries.mapM (fun entry => extractEvents threshold stepSeconds round1 entry.1 entry.2) =
        .ok (all.map List.flatten) :=
      Except.mapM_eq_ok.2 (List.forall₂_map_right_iff.2 (hall.imp fun _ _ h => h.1))
    rw [buildHotspotEventsFromMetricSeries, if_neg (by omega), hmetrics]
    rfl
  · exact List.forall₂_flatMap (hall.imp fun m groups h => List.forall₂_map_left_iff.2 h.2)

theorem filter_reports {entry : Str × Str × List (Sample α)} {es : List (Event α)}
    (h : Reports threshold stepSeconds round1 entry.1 entry.2.1 entry.2.2 es) :
    es.filter (fun e => decide ((e.metric, e.node) = (metric, node))) =
      if (entry.1, entry.2.1) = (metric, node) then es else [] := by
  obtain ⟨runs, -, -, -, -, hdescribes⟩ := h
  have hof : ∀ e ∈ es, e.metric = entry.1 ∧ e.node = entry.2.1 := by
    intro e he
    obtain ⟨p, -, hp⟩ := hdescribes.exists_left e he
    exact ⟨hp.metric_eq, hp.node_eq⟩
  split
  · rename_i heq
    refine List.filter_eq_self.2 fun e he => decide_eq_true ?_
    rw [(hof e he).1, (hof e he).2, heq]
  · rename_i hne
    refine List.filter_eq_nil_iff.2 fun e he heq => hne ?_
    rw [← of_decide_eq_true heq, (hof e he).1, (hof e he).2]

/-- Other series have no such events. -/
theorem filter_others {entries : List (Str × Str × List (Sample α))} {groups : List (List (Event α))}
    (hgroups : List.Forall₂ (fun entry es => Reports threshold stepSeconds round1 entry.1 entry.2.1
      entry.2.2 es) entries groups)
    (hne : (metric, node) ∉ entries.map fun e => (e.1, e.2.1)) :
    groups.flatten.filter (fun e => decide ((e.metric, e.node) = (metric, node))) = [] := by
  induction hgroups with
  | nil => rfl
  | cons hreports _ ih =>
    rw [List.map_cons, List.mem_cons, not_or] at hne
    rw [List.flatten_cons, List.filter_append, filter_reports hreports, if_neg (Ne.symm hne.1),
      ih hne.2, List.append_nil]

/-- The events of one series among all of them. -/
theorem filter_groups {entries : List (Str × Str × List (Sample α))} {groups : List (List (Event α))}
    (hgroups : List.Forall₂ (fun entry es => Reports threshold stepSeconds round1 entry.1 entry.2.1
      entry.2.2 es) entries groups)
    (hnodup : (entries.map fun e => (e.1, e.2.1)).Nodup) {values : List (Sample α)}
      (hmem : (metric, node, values) ∈ entries) :
    Reports threshold stepSeconds round1 metric node values
      (groups.flatten.filter fun e => decide ((e.metric, e.node) = (metric, node))) := by
  induction hgroups with
  | nil => cases hmem
  | cons hreports hrest ih =>
    rw [List.map_cons, List.nodup_cons] at hnodup
    rw [List.flatten_cons, List.filter_append, filter_reports hreports]
    rcases List.mem_cons.1 hmem with rfl | hmem
    · rw [if_pos rfl, filter_others hrest hnodup.1, List.append_nil]
      exact hreports
    · rw [if_neg, List.nil_append]
      · exact ih hnodup.2 hmem
      · intro heq
        refine hnodup.1 (List.mem_map.2 ⟨_, hmem, ?_⟩)
        exact heq.symm

omit [LinearOrder α] in
theorem series_nodup (metrics : Dict Str (Dict Str (List (Sample α)))) :
    ((series metrics).map fun e => (e.1, e.2.1)).Nodup := by
  have hpairwise : metrics.entries.Pairwise fun a b => a.1 ≠ b.1 := List.pairwise_map.1 metrics.nodup
  rw [series, List.map_flatMap, List.nodup_flatMap]
  constructor
  · intro m _
    have hnodes : (m.2.entries.map Prod.fst).Nodup := m.2.nodup
    rw [List.map_map]
    have hinj := hnodes.map (f := fun n => (m.1, n)) fun _ _ h => (Prod.mk.inj h).2
    rwa [List.map_map] at hinj
  · refine hpairwise.imp ?_
    intro a b hne x hx hy
    simp only [List.map_map, List.mem_map, Function.comp] at hx hy
    obtain ⟨_, -, rfl⟩ := hx
    obtain ⟨_, -, h⟩ := hy
    exact hne (Prod.mk.inj h).1.symm

/-- **The events of a metrics map.** One event for each metric, each node and each maximal run of its hot
samples, the latest first; a limit keeps the first ones. -/
theorem hotspot_events {metrics : Dict Str (Dict Str (List (Sample α)))} (hstep : 0 < stepSeconds)
    (hrange : ∀ entry ∈ series metrics, ∀ s ∈ entry.2.2, s.time.isSome = true) :
    ∃ events : List (Event α),
      (∀ limit : Int, buildHotspotEventsFromMetricSeries round1 metrics threshold stepSeconds limit =
        .ok (events.take limit.toNat)) ∧
      (∃ groups, List.Forall₂ (fun entry es => Reports threshold stepSeconds round1 entry.1 entry.2.1 entry.2.2 es)
        (series metrics) groups ∧ events.Perm groups.flatten) ∧
      events.Pairwise Later := by
  obtain ⟨events, groups, hbuild, hflatten, hgroups⟩ :=
    @exists_events _ _ threshold _ round1 _ hstep hrange
  refine ⟨_, hbuild, ⟨groups, hgroups, ?_⟩, (List.pairwise_insertionSort _ _).imp later_of_keyLe⟩
  rw [← hflatten]
  exact List.perm_insertionSort _ _

/-! ## Half a second -/

/-- `round(x, 1)` of a number. -/
def tenths (x : ℚ) : ℚ := round (10 * x) / 10

/-- Two hot samples of a node, a second and a half apart. -/
def halfSecond : Dict Str (Dict Str (List (Sample ℚ))) :=
  ⟨[("cpu".toList, ⟨[("cn1".toList, [⟨1500, .num 90⟩, ⟨0, .num 85⟩])], by simp⟩)], by simp⟩

/-- A hot sample in the year 10000. -/
def farFuture : Dict Str (Dict Str (List (Sample ℚ))) :=
  ⟨[("cpu".toList, ⟨[("cn1".toList, [⟨253402300800000, .num 90⟩])], by simp⟩)], by simp⟩

/-- The event lasts two seconds, a step more than the second between its samples; a time no datetime holds
raises. -/
theorem halfSecond_lost : (∃ e, buildHotspotEventsFromMetricSeries tenths halfSecond 80 1 10 = .ok [e] ∧
      e.start = "1970-01-01T00:00:00+00:00".toList ∧ e.end_ = "1970-01-01T00:00:01.500000+00:00".toList ∧
      e.durationSeconds = 2 ∧ 1000 * e.durationSeconds ≠ (1500 - 0) + 1000 * 1) ∧
    buildHotspotEventsFromMetricSeries tenths farFuture 80 1 10 = .error .yearOutOfRange := by
  refine ⟨⟨⟨"cn1".toList, "cpu".toList, _, _, 2, 90⟩, ?_, rfl, rfl, rfl, by decide⟩, by decide⟩
  decide +kernel

theorem hotspot_events_halfSecond : ∃ events : List (Event ℚ),
    (∀ limit : Int, buildHotspotEventsFromMetricSeries tenths halfSecond 80 1 limit = .ok (events.take limit.toNat)) ∧
    (∃ groups, List.Forall₂ (fun entry es => Reports 80 1 tenths entry.1 entry.2.1 entry.2.2 es)
      (series halfSecond) groups ∧ events.Perm groups.flatten) ∧
    events.Pairwise Later :=
  hotspot_events (by decide) (by decide)

end SlurmWeb.Hotspots
