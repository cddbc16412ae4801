import SlurmWeb.Metrics.Requests

/-!
# What a metrics request reads

The text between two quotes is decoded twice, by the URL and by PromQL. It is read as it stands only when
neither finds a character of its own in it.

* `decodes_quoted`, `decodes_label` — one place of a template, whatever stands around it.
* `requests_read_iff` — the requests for metrics, and those about nodes.
* `partition_reads_jobs` — a partition that reads the jobs of the cluster as well.
-/

namespace SlurmWeb.Metrics

open Strings UrlQuery PromQl

/-! ## One place of a template -/

/-- What is read of a text in a URL, from where the lexer is. -/
def Decodes (m : Mode) (text : Str) (ts : List Token) : Prop := ∃ bs, percentDecode text = some bs ∧
  lexFrom m bs = some ts

theorem decodes_fixed {m : Mode} {text : Str} {ts : List Token} (h : '%' ∉ text) :
    Decodes m text ts ↔ lexFrom m (utf8 text) = some ts := by
  simp [Decodes, percentDecode_plain h]

section Places

variable {m : Mode} {inside : Bool} {q : Char} {before after s : Str} {ts us : List Token}

/-- What comes after the fixed text of a template. -/
theorem decodes_append {m' : Mode} (hbefore : run m (utf8 before) = some (ts, m')) (hfree : '%' ∉ before) :
    Decodes m (before ++ after) (ts ++ us) ↔ Decodes m' after us := by
  unfold Decodes
  rw [percentDecode_free hfree]
  constructor
  · rintro ⟨bs, hbs, hlex⟩
    obtain ⟨cs, hcs, rfl⟩ := Option.map_eq_some_iff.1 hbs
    rw [lexFrom_append hbefore] at hlex
    obtain ⟨vs, hvs, heq⟩ := Option.map_eq_some_iff.1 hlex
    exact ⟨cs, hcs, by rw [hvs, List.append_cancel_left heq]⟩
  · rintro ⟨cs, hcs, hlex⟩
    exact ⟨utf8 before ++ cs, by rw [hcs]; rfl, by rw [lexFrom_append hbefore, hlex]; rfl⟩

/-- A text up to a character that is no digit. -/
theorem decodes_split (hhex : hexValue q = none) (hne : q ≠ '%') (hq : q.toNat < 128) :
    Decodes m (s ++ q :: after) ts ↔
      ∃ a b, percentDecode s = some a ∧ percentDecode after = some b ∧ lexFrom m (a ++ octet q :: b) = some ts := by
  unfold Decodes
  rw [percentDecode_append hhex hne, utf8EncodeChar_ascii hq]
  constructor
  · rintro ⟨bs, hbs, hlex⟩
    obtain ⟨a, ha, hbs⟩ := Option.bind_eq_some_iff.1 hbs
    obtain ⟨b, hb, rfl⟩ := Option.map_eq_some_iff.1 hbs
    exact ⟨a, b, ha, hb, hlex⟩
  · rintro ⟨a, b, ha, hb, hlex⟩
    exact ⟨_, by rw [ha, hb]; rfl, hlex⟩

/-- **A text between quotes** is read as that very text exactly when neither decoding changes it. -/
theorem decodes_quoted (hq : IsQuote q) :
    Decodes (.quoted inside q []) (s ++ q :: after) (.string (utf8 s) :: us) ↔
      (Literal q s ∧ '%' ∉ s) ∧ Decodes (.code inside) after us := by
  have hhex : hexValue q = none ∧ q ≠ '%' := by
    rcases hq with rfl | rfl <;> decide
  rw [decodes_split hhex.1 hhex.2 hq.lt]
  constructor
  · rintro ⟨a, b, ha, hb, hlex⟩
    obtain ⟨hshrinks, hcount⟩ := percentDecode_shrinks hq.lt hhex.1 hhex.2 s a ha
    obtain ⟨hwhole, hliteral, hafter⟩ := (quoted_iff hq (hshrinks.imp_left And.left) hcount).1 hlex
    refine ⟨⟨hliteral, ?_⟩, b, hb, hafter⟩
    rcases hshrinks with ⟨-, hpercent⟩ | hlt
    · exact hpercent
    · rw [hwhole] at hlt
      exact absurd hlt (lt_irrefl _)
  · rintro ⟨⟨hliteral, hpercent⟩, b, hb, hafter⟩
    refine ⟨utf8 s, b, percentDecode_plain hpercent, hb, ?_⟩
    exact (quoted_iff hq (.inl rfl) (count_utf8 hq.lt s).ge).2 ⟨rfl, hliteral, hafter⟩

theorem label_free {h : Str} (hlabel : isLabel h = true) {c : Char} (hc : continuesWord true c = false) : c ∉ h := by
  intro hmem
  rw [isLabel, Bool.and_eq_true, List.all_eq_true] at hlabel
  rw [hlabel.2 c hmem] at hc
  cases hc

/-- **A text before `=`** is read as that very label exactly when it is a label name. -/
theorem decodes_label {h : Str} :
    Decodes (.code true) (h ++ '=' :: after) (.label (utf8 h) :: .symbol '=' :: us) ↔
      isLabel h = true ∧ Decodes (.code true) after us := by
  rw [decodes_split (by decide) (by decide) (by decide)]
  constructor
  · rintro ⟨a, b, ha, hb, hlex⟩
    have hread : isLabel h = true → a = utf8 h := by
      intro hlabel
      rw [percentDecode_plain (label_free hlabel rfl)] at ha
      exact (Option.some.inj ha).symm
    obtain ⟨hlabel, hafter⟩ := (label_iff hread).1 hlex
    exact ⟨hlabel, b, hb, hafter⟩
  · rintro ⟨hlabel, b, hb, hafter⟩
    exact ⟨utf8 h, b, percentDecode_plain (label_free hlabel rfl), hb, (label_iff fun _ => rfl).2 ⟨hlabel, hafter⟩⟩

end Places

/-! ## A URL -/

/-- A URL is read as intended when its query is, and no `&` ends it before. -/
theorem reads_iff {path promql : Str} {rest : List (Str × Str)} {expression : List Token} (hpath : '?' ∉ path)
    (hrest : ∀ p ∈ rest, Free p.1 ∧ Free p.2) :
    Reads (path ++ '?' :: (written ("query".toList, promql) ++ more rest)) ⟨path, expression, rest⟩ ↔
      '&' ∉ promql ∧ Decodes (.code false) promql expression := by
  have hname : Free "query".toList := by decide
  unfold Reads Decodes
  rw [request_eq hpath]
  constructor
  · rintro ⟨text, hrequest, htokens⟩
    obtain ⟨params, hparams, heq⟩ := Option.map_eq_some_iff.1 hrequest
    rw [(Prod.mk.inj heq).2] at hparams
    obtain ⟨hamp, hdecode⟩ := (parameters_iff hname hrest).1 hparams
    exact ⟨hamp, text, hdecode, htokens⟩
  · rintro ⟨hamp, text, hdecode, htokens⟩
    exact ⟨text, by rw [(parameters_iff hname hrest).2 ⟨hamp, hdecode⟩]; rfl, htokens⟩

theorem free_int (n : Int) : Free (toString n).toList := by
  have hnot : ∀ c : Char, c.isDigit = false → c ≠ '-' → c ∉ (toString n).toList := by
    intro c hdigit hsign hmem
    rcases mem_int_text hmem with h | h
    · rw [h] at hdigit
      cases hdigit
    · exact hsign h
  exact ⟨hnot _ (by decide) (by decide), hnot _ (by decide) (by decide), hnot _ (by decide) (by decide)⟩

theorem free_floatText (n : Int) : Free (floatText n) := (free_int n).append (by decide)

/-- A resolution of the tables. -/
theorem ofDuration_mem (set : RangeResolutionSet) (duration : Int) :
    set.ofDuration duration ∈ [set.hour, set.day, set.week] := by
  unfold RangeResolutionSet.ofDuration
  split
  · simp
  · split <;> simp

theorem named_mem {set : RangeResolutionSet} {last : Str} {resolution : RangeResolution}
    (h : set.named last = .ok resolution) : resolution ∈ [set.hour, set.day, set.week] := by
  unfold RangeResolutionSet.named at h
  split at h
  · cases h
    simp
  split at h
  · cases h
    simp
  split at h
  · cases h
    simp
  · cases h

/-! ## Partitions -/

theorem isQuote_single : IsQuote singleQuote := .inl rfl

theorem isQuote_double : IsQuote doubleQuote := .inr rfl

/-- The query text of a metric up to the name of the job. -/
def opening (id : Str) : Str := "avg_over_time(".toList ++ id ++ "\x7bjob='".toList

/-- It is read as it stands. -/
structure Opens (id : Str) : Prop where
  percent : '%' ∉ opening id
  amp : '&' ∉ opening id
  run_eq : run (.code false) (utf8 (opening id)) =
    some (fixed "avg_over_time(".toList ++ [.word (utf8 id), .symbol '\x7b', .label (utf8 "job".toList), .symbol '='],
      .quoted true singleQuote [])

/-- The metrics of partitions are averages, and their queries start alike. -/
theorem partitionSupported_params {metric : Metric} (h : metric.partitionSupported = true) :
    ∃ name, queryParams metric = averaged name resolution30s ∧ Opens name.toList := by
  cases metric with
  | nodes => exact ⟨_, rfl, by decide, by decide, by decide⟩
  | cores => exact ⟨_, rfl, by decide, by decide, by decide⟩
  | gpus => exact ⟨_, rfl, by decide, by decide, by decide⟩
  | memory => exact ⟨_, rfl, by decide, by decide, by decide⟩
  | jobs => exact ⟨_, rfl, by decide, by decide, by decide⟩
  | cache => cases h
  | users => cases h

/-- What comes after the partition is read as it stands. -/
structure Tail (tail : Str) : Prop where
  percent : '%' ∉ tail
  amp : '&' ∉ tail
  lex_eq : lexFrom (.code true) (utf8 ('\x7d' :: tail)) = some (.symbol '\x7d' :: fixed tail)

theorem tail_window {resolution : RangeResolution}
    (h : resolution ∈ [resolution30s.hour, resolution30s.day, resolution30s.week]) :
    Tail ("[".toList ++ resolution.step ++ "])".toList) := by
  simp only [List.mem_cons, List.not_mem_nil, or_false] at h
  rcases h with rfl | rfl | rfl
  · exact ⟨by decide, by decide, by decide⟩
  · exact ⟨by decide, by decide, by decide⟩
  · exact ⟨by decide, by decide, by decide⟩

theorem tail_range {resolution : RangeResolution}
    (h : resolution ∈ [resolution30s.hour, resolution30s.day, resolution30s.week]) :
    Tail ("[".toList ++ resolution.step ++ "])[".toList ++ resolution.range ++ ":".toList ++
      resolution.step ++ "]".toList) := by
  simp only [List.mem_cons, List.not_mem_nil, or_false] at h
  rcases h with rfl | rfl | rfl
  · exact ⟨by decide, by decide, by decide⟩
  · exact ⟨by decide, by decide, by decide⟩
  · exact ⟨by decide, by decide, by decide⟩

theorem harmless_iff {q : Char} {s : Str} : Harmless q s ↔ (Literal q s ∧ '%' ∉ s) ∧ '&' ∉ s := by
  have hmem : ∀ c : Char, (∀ d ∈ s, d ≠ c) ↔ c ∉ s := fun c =>
    ⟨fun h hmem => h c hmem rfl, fun h d hd heq => h (heq ▸ hd)⟩
  simp only [Harmless, Literal, forall_and, hmem]
  tauto

/-- The average of a metric in a partition. -/
theorem average_reads_iff {metric : Metric} (hsupported : metric.partitionSupported = true) {id : Str} (hid : Opens id)
    (db : MetricsDb) (partition : Option Str) {tail : Str} (htail : Tail tail) {path : Str} (hpath : '?' ∉ path)
    {rest : List (Str × Str)} (hrest : ∀ p ∈ rest, Free p.1 ∧ Free p.2) :
    Reads (path ++ '?' :: (written ("query".toList, "avg_over_time(".toList ++ id ++ db.filter metric
      partition ++ tail) ++ more rest))
        ⟨path, fixed "avg_over_time(".toList ++ (db.partitionSelector id partition).tokens ++ fixed tail, rest⟩ ↔
      Harmless singleQuote db.job ∧ Harmless singleQuote (partition.getD []) := by
  have htext : "avg_over_time(".toList ++ id ++ db.filter metric partition ++ tail =
      opening id ++ (db.job ++ singleQuote ::
        (",partition='".toList ++ (partition.getD [] ++ singleQuote :: ('\x7d' :: tail)))) := by
    unfold opening
    simp [MetricsDb.filter, hsupported, singleQuote]
  have hexpression : fixed "avg_over_time(".toList ++ (db.partitionSelector id partition).tokens ++ fixed tail =
      (fixed "avg_over_time(".toList ++ [.word (utf8 id), .symbol '\x7b', .label (utf8 "job".toList), .symbol '=']) ++
        .string (utf8 db.job) :: ([.symbol ',', .label (utf8 "partition".toList), .symbol '='] ++
          .string (utf8 (partition.getD [])) :: .symbol '\x7d' :: fixed tail) := by
    simp [Selector.tokens, MetricsDb.partitionSelector, matcher]
  have hmiddle : run (.code true) (utf8 ",partition='".toList) =
      some ([.symbol ',', .label (utf8 "partition".toList), .symbol '='], .quoted true singleQuote []) := by
        decide
  have hend : '%' ∉ '\x7d' :: tail := by
    rw [List.mem_cons, not_or]
    exact ⟨by decide, htail.percent⟩
  have hamp : '&' ∉ opening id ++ (db.job ++ singleQuote :: (",partition='".toList ++
      (partition.getD [] ++ singleQuote :: ('\x7d' :: tail)))) ↔ '&' ∉ db.job ∧ '&' ∉ partition.getD [] := by
    simp [hid.amp, htail.amp, singleQuote]
  rw [reads_iff hpath hrest, htext, hexpression, hamp, decodes_append hid.run_eq hid.percent,
    decodes_quoted isQuote_single,
    decodes_append hmiddle (by decide), decodes_quoted isQuote_single, decodes_fixed hend,
      htail.lex_eq, harmless_iff,
    harmless_iff]
  tauto

theorem supported_resolution {params : MetricQuery} {last : Str} {startTime endTime : Option Int}
    (h : Supported last startTime endTime) :
      ∃ resolution, resolveResolution params last startTime endTime = .ok resolution ∧
      resolution ∈ [params.resolution.hour, params.resolution.day, params.resolution.week] := by
  have hnamed : last ∈ ["hour".toList, "day".toList, "week".toList] →
      ∃ resolution, params.resolution.named last = .ok resolution := by
    intro hlast
    simp only [List.mem_cons, List.not_mem_nil, or_false] at hlast
    rcases hlast with rfl | rfl | rfl
    · exact ⟨_, rfl⟩
    · exact ⟨_, rfl⟩
    · exact ⟨_, rfl⟩
  have hunwindowed : resolveResolution params last startTime endTime = params.resolution.named last →
      last ∈ ["hour".toList, "day".toList, "week".toList] → ∃ resolution,
        resolveResolution params last startTime endTime = .ok resolution ∧
        resolution ∈ [params.resolution.hour, params.resolution.day, params.resolution.week] := by
    intro heq hlast
    obtain ⟨resolution, hresolution⟩ := hnamed hlast
    exact ⟨resolution, heq.trans hresolution, named_mem hresolution⟩
  cases startTime with
  | none => exact hunwindowed rfl (h.resolve_left fun hwindow => by cases hwindow.1)
  | some startTime =>
    cases endTime with
    | none => exact hunwindowed rfl (h.resolve_left fun hwindow => by cases hwindow.2)
    | some endTime => exact ⟨_, rfl, ofDuration_mem _ _⟩

theorem allRead_ok {urls : List Str} {intended : List Intended} :
    AllRead (.ok urls) (.ok intended) ↔ List.Forall₂ Reads urls intended := by
  simp [AllRead]

theorem allRead_single {url : Str} {intended : Intended} : AllRead (.ok [url]) (.ok [intended]) ↔
    Reads url intended := by
  simp [allRead_ok]

theorem times_free {startTime endTime step : Str} (hstart : Free startTime) (hend : Free endTime) (hstep : Free step) :
    ∀ p ∈ times startTime endTime step, Free p.1 ∧ Free p.2 := by
  have hnames : Free "start".toList ∧ Free "end".toList ∧ Free "step".toList := by decide
  simp only [times, List.forall_mem_cons]
  exact ⟨⟨hnames.1, hstart⟩, ⟨hnames.2.1, hend⟩, ⟨hnames.2.2, hstep⟩, fun _ h => by cases h⟩

theorem url_path {db : MetricsDb} {endpoint : Str} (h : '?' ∉ endpoint) : '?' ∉ db.url endpoint := by
  have hapi : '?' ∉ "/api/v1/".toList := by decide
  simp only [MetricsDb.url, List.mem_append, not_or]
  exact ⟨⟨db.baseUri_path, hapi⟩, h⟩

theorem step_free {resolution : RangeResolution}
    (h : resolution ∈ [resolution30s.hour, resolution30s.day, resolution30s.week]) : Free resolution.step := by
  simp only [List.mem_cons, List.not_mem_nil, or_false] at h
  rcases h with rfl | rfl | rfl
  · decide
  · decide
  · decide

/-- **The request for a metric** reads that metric in that partition exactly when the names are harmless. -/
theorem partition_reads_iff {metric : Metric} (hsupported : metric.partitionSupported = true)
    (db : MetricsDb) {last : Str}
    (partition : Option Str) {startTime endTime : Option Int} (h : Supported last startTime endTime) (now : Int) :
    AllRead (db.request metric last partition startTime endTime now)
      (db.intended metric last partition startTime endTime) ↔
      Harmless singleQuote db.job ∧ Harmless singleQuote (partition.getD []) := by
  obtain ⟨name, hparams, hopens⟩ := partitionSupported_params hsupported
  obtain ⟨resolution, hresolution, hmem⟩ := supported_resolution h
  have hrequest : ∀ target, db.query metric name.toList (averaged name resolution30s) last partition startTime
      endTime now = .ok target →
      db.request metric last partition startTime endTime now = .ok [db.url target] := by
    intro target htarget
    have hmap : (averaged name resolution30s).ids = [name.toList] := rfl
    unfold MetricsDb.request
    simp [hsupported, hparams, hmap, htarget]
  by_cases hwindow : startTime.isSome ∧ endTime.isSome
  · obtain ⟨⟨startTime, rfl⟩, endTime, rfl⟩ := And.imp Option.isSome_iff_exists.1 Option.isSome_iff_exists.1 hwindow
    have hurl : db.request metric last partition (some startTime) (some endTime) now =
        .ok [db.url "query_range".toList ++ '?' :: (written ("query".toList, "avg_over_time(".toList ++ name.toList ++
          db.filter metric partition ++ ("[".toList ++ resolution.step ++ "])".toList)) ++ more (times
            (floatText (rounded resolution startTime)) (floatText (rounded resolution endTime)) resolution.step))] := by
      have htarget : db.query metric name.toList (averaged name resolution30s) last partition
          (some startTime) (some endTime) now =
          .ok ("query_range?query=".toList ++
            ("avg_over_time".toList ++ "(".toList ++ name.toList ++ db.filter metric partition ++
            "[".toList ++ resolution.step ++ "])".toList) ++ "&start=".toList ++
              floatText (rounded resolution startTime) ++
            "&end=".toList ++ floatText (rounded resolution endTime) ++ "&step=".toList ++ resolution.step) := by
        unfold MetricsDb.query
        rw [hresolution]
        rfl
      rw [hrequest _ htarget]
      refine congrArg (fun url => Except.ok [url]) ?_
      unfold MetricsDb.url
      simp [written, more, times]
    have hintended : db.intended metric last partition (some startTime) (some endTime) =
        .ok [⟨db.url "query_range".toList, fixed "avg_over_time(".toList ++
          (db.partitionSelector name.toList partition).tokens ++
          fixed ("[".toList ++ resolution.step ++ "])".toList),
          times (floatText (rounded resolution startTime)) (floatText (rounded resolution endTime))
            resolution.step⟩] := by
      unfold MetricsDb.intended
      simp only [hparams, hresolution, Except.ok_bind]
      rfl
    rw [hurl, hintended, allRead_single]
    exact average_reads_iff hsupported hopens db partition (tail_window hmem) (url_path (by decide))
      (times_free (free_floatText _) (free_floatText _) (step_free hmem))
  · have hurl : db.request metric last partition startTime endTime now =
        .ok [db.url "query".toList ++ '?' :: (written ("query".toList, "avg_over_time(".toList ++ name.toList ++
          db.filter metric partition ++ ("[".toList ++ resolution.step ++ "])[".toList ++
            resolution.range ++ ":".toList ++ resolution.step ++ "]".toList)) ++ more [])] := by
      have htarget : db.query metric name.toList (averaged name resolution30s) last partition startTime endTime now =
          .ok ("query".toList ++ "?query=".toList ++
            ("avg_over_time".toList ++ "(".toList ++ name.toList ++ db.filter metric partition ++
            "[".toList ++ resolution.step ++ "])".toList) ++ "[".toList ++ resolution.range ++
              ":".toList ++ resolution.step ++
            "]".toList) := by
        unfold MetricsDb.query
        rw [hresolution]
        cases startTime with
        | none => rfl
        | some startTime =>
          cases endTime with
          | none => rfl
          | some endTime => exact absurd ⟨rfl, rfl⟩ hwindow
      rw [hrequest _ htarget]
      refine congrArg (fun url => Except.ok [url]) ?_
      unfold MetricsDb.url
      simp [written, more]
    have hintended : db.intended metric last partition startTime endTime =
        .ok [⟨db.url "query".toList, fixed "avg_over_time(".toList ++
          (db.partitionSelector name.toList partition).tokens ++
          fixed ("[".toList ++ resolution.step ++ "])[".toList ++ resolution.range ++ ":".toList ++
            resolution.step ++ "]".toList),
          []⟩] := by
      unfold MetricsDb.intended
      simp only [hparams, hresolution, Except.ok_bind]
      cases startTime with
      | none => rfl
      | some startTime =>
        cases endTime with
        | none => rfl
        | some endTime => exact absurd ⟨rfl, rfl⟩ hwindow
    rw [hurl, hintended, allRead_single]
    exact average_reads_iff hsupported hopens db partition (tail_range hmem) (url_path (by decide))
      (fun _ h => by cases h)

/-! ## Nodes -/

def nodeTokens (nodeName hostnameLabel : Str) : List Token := matcher (hostnameLabel, nodeName) ++ [.symbol '\x7d']

/-- A node and its label say what they are. -/
def Named (nodeName hostnameLabel : Str) : Prop := Harmless doubleQuote nodeName ∧ isLabel hostnameLabel = true

section Node

variable {nodeName hostnameLabel after : Str} {us : List Token}

theorem decodes_node : Decodes (.code true) (MetricsDb.nodeMatcher nodeName hostnameLabel ++ after)
    (nodeTokens nodeName hostnameLabel ++ us) ↔
    (isLabel hostnameLabel = true ∧ Literal doubleQuote nodeName ∧ '%' ∉ nodeName) ∧
      Decodes (.code false) after us := by
  have htext : MetricsDb.nodeMatcher nodeName hostnameLabel ++ after =
      hostnameLabel ++ '=' :: ([doubleQuote] ++ (nodeName ++ doubleQuote :: (['\x7d'] ++ after))) := by
    simp [MetricsDb.nodeMatcher, doubleQuote]
  have htokens : nodeTokens nodeName hostnameLabel ++ us =
      .label (utf8 hostnameLabel) :: .symbol '=' :: ([] ++ .string (utf8 nodeName) :: ([.symbol '\x7d'] ++ us)) := by
    simp [nodeTokens, matcher]
  have hopen : run (.code true) (utf8 [doubleQuote]) = some ([], .quoted true doubleQuote []) := by decide
  have hclose : run (.code true) (utf8 ['\x7d']) = some ([.symbol '\x7d'], .code false) := by decide
  rw [htext, htokens, decodes_label, decodes_append hopen (by decide), decodes_quoted isQuote_double,
    decodes_append hclose (by decide)]
  simp only [and_assoc]

theorem amp_nodeMatcher (hlabel : isLabel hostnameLabel = true) :
    '&' ∉ MetricsDb.nodeMatcher nodeName hostnameLabel ↔ '&' ∉ nodeName := by
  have hfree : '&' ∉ hostnameLabel := label_free hlabel rfl
  simp [MetricsDb.nodeMatcher, hfree]

/-- What stands before a node in a query text, up to its label, and how it is read. -/
structure Before (before : Str) (ts : List Token) : Prop where
  percent : '%' ∉ before
  amp : '&' ∉ before
  run_eq : run (.code false) (utf8 before) = some (ts, .code true)

theorem before_node {before : Str} {ts : List Token} (h : Before before ts) :
    ('&' ∉ before ++ (MetricsDb.nodeMatcher nodeName hostnameLabel ++ after) ∧
        Decodes (.code false) (before ++ (MetricsDb.nodeMatcher nodeName hostnameLabel ++ after))
          (ts ++ (nodeTokens nodeName hostnameLabel ++ us))) ↔
      Named nodeName hostnameLabel ∧ '&' ∉ after ∧ Decodes (.code false) after us := by
  rw [decodes_append h.run_eq h.percent, decodes_node, Named, harmless_iff, List.mem_append,
    List.mem_append, not_or, not_or]
  constructor
  · rintro ⟨⟨-, htext, hafter⟩, ⟨hlabel, hliteral⟩, hdecodes⟩
    exact ⟨⟨⟨hliteral, (amp_nodeMatcher hlabel).1 htext⟩, hlabel⟩, hafter, hdecodes⟩
  · rintro ⟨⟨⟨hliteral, hamp⟩, hlabel⟩, hafter, hdecodes⟩
    exact ⟨⟨h.amp, (amp_nodeMatcher hlabel).2 hamp, hafter⟩, ⟨hlabel, hliteral⟩, hdecodes⟩

/-- The end of a query. -/
structure After (after : Str) : Prop where
  percent : '%' ∉ after
  amp : '&' ∉ after
  lex_eq : lexFrom (.code false) (utf8 after) = some (fixed after)

theorem After.decodes (h : After after) : '&' ∉ after ∧ Decodes (.code false) after (fixed after) :=
  ⟨h.amp, (decodes_fixed h.percent).2 h.lex_eq⟩

end Node

/-- The tokens of a selector before the node. -/
def selecting (metric : String) (labels : List (Str × Str)) : List Token :=
  .word (utf8 metric.toList) :: .symbol '\x7b' :: (labels.map fun label => matcher label ++ [.symbol ',']).flatten

theorem nodeSelector_tokens (metric : String) (labels : List (Str × Str)) (nodeName hostnameLabel : Str) :
    (MetricsDb.nodeSelector metric labels nodeName hostnameLabel).tokens =
      selecting metric labels ++ nodeTokens nodeName hostnameLabel := by
  have hlabels : [.symbol ','].intercalate ((labels ++ [(hostnameLabel, nodeName)]).map matcher) =
      (labels.map fun label => matcher label ++ [Token.symbol ',']).flatten ++ matcher (hostnameLabel, nodeName) := by
    induction labels with
    | nil => simp
    | cons label labels ih =>
      rw [List.cons_append, List.map_cons, List.map_cons, List.flatten_cons,
        List.intercalate_cons_of_ne_nil (by simp), ih]
      simp
  simp only [Selector.tokens, MetricsDb.nodeSelector, selecting, nodeTokens, hlabels,
    List.cons_append, List.append_assoc]

section Queries

variable {nodeName hostnameLabel before middle after text text' : Str} {metric metric' : String}
    {labels labels' : List (Str × Str)}

theorem one_node (hbefore : Before before (fixed text ++ selecting metric labels)) (hafter : After after) :
    ('&' ∉ before ++ (MetricsDb.nodeMatcher nodeName hostnameLabel ++ after) ∧
        Decodes (.code false) (before ++ (MetricsDb.nodeMatcher nodeName hostnameLabel ++ after))
          (fixed text ++ (MetricsDb.nodeSelector metric labels nodeName hostnameLabel).tokens ++ fixed after)) ↔
      Named nodeName hostnameLabel := by
  have htokens : fixed text ++ (MetricsDb.nodeSelector metric labels nodeName hostnameLabel).tokens ++ fixed after =
      (fixed text ++ selecting metric labels) ++ (nodeTokens nodeName hostnameLabel ++ fixed after) := by
    simp only [nodeSelector_tokens, List.append_assoc]
  rw [htokens, before_node hbefore]
  exact and_iff_left hafter.decodes

theorem two_nodes (hbefore : Before before (fixed text ++ selecting metric labels))
    (hmiddle : Before middle (fixed text' ++ selecting metric' labels')) (hafter : After after) :
    ('&' ∉ before ++ (MetricsDb.nodeMatcher nodeName hostnameLabel ++
          (middle ++ (MetricsDb.nodeMatcher nodeName hostnameLabel ++ after))) ∧
        Decodes (.code false) (before ++ (MetricsDb.nodeMatcher nodeName hostnameLabel ++
            (middle ++ (MetricsDb.nodeMatcher nodeName hostnameLabel ++ after))))
          (fixed text ++ (MetricsDb.nodeSelector metric labels nodeName hostnameLabel).tokens ++ fixed text' ++
            (MetricsDb.nodeSelector metric' labels' nodeName hostnameLabel).tokens ++ fixed after)) ↔
      Named nodeName hostnameLabel := by
  have htokens : fixed text ++ (MetricsDb.nodeSelector metric labels nodeName hostnameLabel).tokens ++ fixed text' ++
        (MetricsDb.nodeSelector metric' labels' nodeName hostnameLabel).tokens ++ fixed after =
      (fixed text ++ selecting metric labels) ++ (nodeTokens nodeName hostnameLabel ++
        ((fixed text' ++ selecting metric' labels') ++ (nodeTokens nodeName hostnameLabel ++ fixed after))) := by
    simp only [nodeSelector_tokens, List.append_assoc]
  rw [htokens, before_node hbefore, before_node hmiddle]
  exact and_iff_left_of_imp fun hnamed => ⟨hnamed, hafter.decodes⟩

/-- The queries about a node are read as intended exactly when the node and the label say what they are. -/
theorem nodeQueries_iff : List.Forall₂ (fun query expression => '&' ∉ query.2 ∧
    Decodes (.code false) query.2 expression)
      (MetricsDb.nodeQueries nodeName hostnameLabel) (MetricsDb.nodeExpressions nodeName hostnameLabel) ↔
      Named nodeName hostnameLabel := by
  have hcpu : Before "100 - (avg(rate(node_cpu_seconds_total\x7bmode=\"idle\",".toList
      (fixed "100 - (avg(rate(".toList ++ selecting "node_cpu_seconds_total" [("mode".toList, "idle".toList)]) :=
    ⟨by decide, by decide, by decide⟩
  have hcpuEnd : After "[1m])) * 100)".toList := ⟨by decide, by decide, by decide⟩
  have hmemory : Before "100 * (1 - (node_memory_MemAvailable_bytes\x7b".toList
      (fixed "100 * (1 - (".toList ++ selecting "node_memory_MemAvailable_bytes" []) :=
    ⟨by decide, by decide, by decide⟩
  have htotal : Before " / node_memory_MemTotal_bytes\x7b".toList
      (fixed " / ".toList ++ selecting "node_memory_MemTotal_bytes" []) :=
    ⟨by decide, by decide, by decide⟩
  have hmemoryEnd : After "))".toList := ⟨by decide, by decide, by decide⟩
  have hdisk : Before "100 - ((node_filesystem_avail_bytes\x7bmountpoint=\"/\",".toList
      (fixed "100 - ((".toList ++ selecting "node_filesystem_avail_bytes" [("mountpoint".toList, "/".toList)]) :=
    ⟨by decide, by decide, by decide⟩
  have hsize : Before " / node_filesystem_size_bytes\x7bmountpoint=\"/\",".toList
      (fixed " / ".toList ++ selecting "node_filesystem_size_bytes" [("mountpoint".toList, "/".toList)]) :=
    ⟨by decide, by decide, by decide⟩
  have hdiskEnd : After ") * 100)".toList := ⟨by decide, by decide, by decide⟩
  constructor
  · rintro (_ | ⟨hfirst, -⟩)
    exact (one_node hcpu hcpuEnd).1 hfirst
  · intro h
    exact .cons ((one_node hcpu hcpuEnd).2 h) (.cons ((two_nodes hmemory htotal hmemoryEnd).2 h)
      (.cons ((two_nodes hdisk hsize hdiskEnd).2 h) .nil))

/-- **The requests about a node** read that node. -/
theorem nodes_read_iff {path : Str} (hpath : '?' ∉ path) {rest : List (Str × Str)}
    (hrest : ∀ p ∈ rest, Free p.1 ∧ Free p.2) : List.Forall₂ Reads
        ((MetricsDb.nodeQueries nodeName hostnameLabel).map fun query =>
          path ++ '?' :: (written ("query".toList, query.2) ++ more rest))
        ((MetricsDb.nodeExpressions nodeName hostnameLabel).map fun expression => ⟨path, expression, rest⟩) ↔
      Named nodeName hostnameLabel := by
  rw [List.forall₂_map_left_iff, List.forall₂_map_right_iff]
  simp only [reads_iff hpath hrest]
  exact nodeQueries_iff

end Queries

theorem instant_reads_iff (db : MetricsDb) (nodeName hostnameLabel : Str) :
    List.Forall₂ Reads (db.nodeInstantMetrics nodeName hostnameLabel) (db.nodeIntended nodeName hostnameLabel) ↔
      Named nodeName hostnameLabel := by
  have hurls : db.nodeInstantMetrics nodeName hostnameLabel =
      (MetricsDb.nodeQueries nodeName hostnameLabel).map fun query =>
      db.url "query".toList ++ '?' :: (written ("query".toList, query.2) ++ more []) := by
    refine List.map_congr_left fun query _ => ?_
    simp [MetricsDb.url, written, more]
  rw [hurls]
  exact nodes_read_iff (url_path (by decide)) fun _ h => by cases h

theorem supported_window {last : Str} {startTime endTime : Option Int}
    (h : Supported last startTime endTime) (now : Int) :
    ∃ start stop resolution, MetricsDb.historyWindow last startTime endTime now = .ok (start, stop, resolution) ∧
      resolution ∈ [resolution30s.hour, resolution30s.day, resolution30s.week] := by
  have hranged : last ∈ ["hour".toList, "day".toList, "week".toList] → ∃ start stop resolution,
      (do
        let resolution ← resolution30s.named last
        let start ← startOf last now
        Except.ok (start, now, resolution)) = Except.ok (start, stop, resolution) ∧
      resolution ∈ [resolution30s.hour, resolution30s.day, resolution30s.week] := by
    intro hlast
    simp only [List.mem_cons, List.not_mem_nil, or_false] at hlast
    rcases hlast with rfl | rfl | rfl
    · exact ⟨_, _, _, rfl, by simp⟩
    · exact ⟨_, _, _, rfl, by simp⟩
    · exact ⟨_, _, _, rfl, by simp⟩
  cases startTime with
  | none => exact hranged (h.resolve_left fun hwindow => by cases hwindow.1)
  | some startTime =>
    cases endTime with
    | none => exact hranged (h.resolve_left fun hwindow => by cases hwindow.2)
    | some endTime => exact ⟨_, _, _, rfl, ofDuration_mem _ _⟩

theorem history_reads_iff (db : MetricsDb) (nodeName : Str) {last : Str} (hostnameLabel : Str)
    {startTime endTime : Option Int} (h : Supported last startTime endTime) (now : Int) :
    AllRead (db.nodeHistoryMetrics nodeName last hostnameLabel startTime endTime now)
        (db.nodeHistoryIntended nodeName last hostnameLabel startTime endTime now) ↔ Named nodeName hostnameLabel := by
  obtain ⟨start, stop, resolution, hwindow, hmem⟩ := supported_window h now
  have hurls : db.nodeHistoryMetrics nodeName last hostnameLabel startTime endTime now =
      .ok ((MetricsDb.nodeQueries nodeName hostnameLabel).map fun query => db.url "query_range".toList ++
        '?' :: (written ("query".toList, query.2) ++ more (times (toString (rounded resolution start)).toList
          (toString (rounded resolution stop)).toList resolution.step))) := by
    unfold MetricsDb.nodeHistoryMetrics
    rw [hwindow, Except.ok_bind]
    refine congrArg Except.ok (List.map_congr_left fun query _ => ?_)
    simp [MetricsDb.url, written, more, times]
  have hintended : db.nodeHistoryIntended nodeName last hostnameLabel startTime endTime now =
      .ok ((MetricsDb.nodeExpressions nodeName hostnameLabel).map fun expression =>
        ⟨db.url "query_range".toList, expression,
        times (toString (rounded resolution start)).toList (toString (rounded resolution stop)).toList
          resolution.step⟩) := by
    unfold MetricsDb.nodeHistoryIntended
    rw [hwindow]
    rfl
  rw [hurls, hintended, allRead_ok]
  exact nodes_read_iff (url_path (by decide)) (times_free (free_int _) (free_int _) (step_free hmem))

/-! ## The view -/

theorem supported_of_named {set : RangeResolutionSet} {last : Str} {resolution : RangeResolution}
    (h : set.named last = .ok resolution) : last ∈ ["hour".toList, "day".toList, "week".toList] := by
  unfold RangeResolutionSet.named at h
  split at h
  · simp [*]
  split at h
  · simp [*]
  split at h
  · simp [*]
  · cases h

theorem supported_of_request {db : MetricsDb} {metric : Metric} {last : Str} {partition : Option Str}
    {startTime endTime : Option Int}
    {now : Int} {urls : List Str} (hsupported : metric.partitionSupported = true)
    (h : db.request metric last partition startTime endTime now = .ok urls) : Supported last startTime endTime := by
  obtain ⟨name, hparams, -⟩ := partitionSupported_params hsupported
  have hids : (queryParams metric).ids = [name.toList] := by
    rw [hparams]
    rfl
  unfold MetricsDb.request at h
  simp only [hids, List.mapM_cons, List.mapM_nil] at h
  obtain ⟨url, hurl, -⟩ := Except.bind_eq_ok.1 h
  obtain ⟨resolution, hresolution⟩ : ∃ resolution,
      resolveResolution (queryParams metric) last startTime endTime = .ok resolution := by
    unfold MetricsDb.query at hurl
    cases hresolution : resolveResolution (queryParams metric) last startTime endTime with
    | ok resolution => exact ⟨resolution, rfl⟩
    | error error =>
      rw [hresolution] at hurl
      cases hurl
  cases startTime with
  | none => exact .inr (supported_of_named hresolution)
  | some startTime =>
    cases endTime with
    | none => exact .inr (supported_of_named hresolution)
    | some endTime => exact .inl ⟨rfl, rfl⟩

/-- What the view has checked when it asks the database. -/
theorem metrics_ok {allowed : Str × Str × Str → Bool} {metricsDb : Option MetricsDb}
    {userMetricsEnabled : Bool} {metric : Str} {args : MetricsArgs} {now : Int} {urls : List Str}
    (h : metrics allowed metricsDb userMetricsEnabled metric args now = .ok urls) :
    ∃ db id startTime endTime, metricsDb = some db ∧ Metric.named metric = some id ∧ allowed id.permission = true ∧
      metricsWindow args.startTime args.endTime = .ok (startTime, endTime) ∧
      db.request id (args.range.getD "hour".toList) args.partition startTime endTime now = .ok urls := by
  unfold metrics at h
  split at h
  · cases h
  rename_i db
  split at h
  · cases h
  rename_i id hid
  split at h
  · cases h
  split at h
  · cases h
  rename_i hallowed
  split at h
  · cases h
  rename_i startTime endTime hwindow
  split at h
  · cases h
  rename_i sent hrequest
  cases h
  exact ⟨db, id, startTime, endTime, rfl, hid, by simpa using hallowed, hwindow, hrequest⟩

/-- A client that asks for a partition by its name reads the metric it is allowed to see, in that partition. -/
theorem metrics_read {allowed : Str × Str × Str → Bool} {db : MetricsDb} {userMetricsEnabled : Bool} {metric : Str}
    {args : MetricsArgs} {now : Int} {urls : List Str} (hjob : Harmless singleQuote db.job)
    (hpartition : Harmless singleQuote (args.partition.getD []))
    (h : metrics allowed (some db) userMetricsEnabled metric args now = .ok urls) :
    ∃ id startTime endTime, Metric.named metric = some id ∧ allowed id.permission = true ∧
      (id.partitionSupported = true →
        AllRead (.ok urls) (db.intended id (args.range.getD "hour".toList) args.partition startTime endTime)) := by
  obtain ⟨db', id, startTime, endTime, hdb, hid, hallowed, -, hrequest⟩ := metrics_ok h
  cases hdb
  refine ⟨id, startTime, endTime, hid, hallowed, fun hsupported => ?_⟩
  rw [← hrequest, partition_reads_iff hsupported db args.partition (supported_of_request hsupported hrequest) now]
  exact ⟨hjob, hpartition⟩

/-- **A metrics request reads only the series it names**: exactly when the job and the partition, or the node and
its label, are no more than names. -/
theorem requests_read_iff (db : MetricsDb) :
    (∀ (metric : Metric) (last : Str) (partition : Option Str) (startTime endTime : Option Int) (now : Int),
      metric.partitionSupported = true → Supported last startTime endTime →
        (AllRead (db.request metric last partition startTime endTime now)
          (db.intended metric last partition startTime endTime) ↔
          Harmless singleQuote db.job ∧ Harmless singleQuote (partition.getD []))) ∧
    (∀ nodeName hostnameLabel : Str,
      List.Forall₂ Reads (db.nodeInstantMetrics nodeName hostnameLabel) (db.nodeIntended nodeName hostnameLabel) ↔
        Named nodeName hostnameLabel) ∧
    ∀ (nodeName last hostnameLabel : Str) (startTime endTime : Option Int) (now : Int),
      Supported last startTime endTime →
      (AllRead (db.nodeHistoryMetrics nodeName last hostnameLabel startTime endTime now)
          (db.nodeHistoryIntended nodeName last hostnameLabel startTime endTime now) ↔ Named nodeName hostnameLabel) :=
  ⟨fun _ _ partition _ _ now hsupported h => partition_reads_iff hsupported db partition h now, instant_reads_iff db,
    fun nodeName _ hostnameLabel _ _ now h => history_reads_iff db nodeName hostnameLabel h now⟩

/-- Prometheus, with the job that scrapes this cluster. -/
def slurm : MetricsDb := ⟨"http://localhost:9090".toList, "slurm".toList, by decide⟩

theorem requests_read_iff_gpu : Metric.nodes.partitionSupported = true ∧ Supported "hour".toList none none ∧
    AllRead (slurm.request .nodes "hour".toList (some "gpu".toList) none none 0)
      (slurm.intended .nodes "hour".toList (some "gpu".toList) none none) := by
  have hsupported : Supported "hour".toList none none := .inr (by simp)
  refine ⟨rfl, hsupported, ((requests_read_iff slurm).1 _ _ _ _ _ _ rfl hsupported).2 ⟨?_, ?_⟩⟩
  · decide
  · decide

/-- A partition that ends its string. -/
def jobsPartition : Str := "x'\x7d[30s]) or avg_over_time(slurm_jobs\x7bjob='slurm".toList

/-- May see the nodes, but not the jobs. -/
def onlyResources (permission : Str × Str × Str) : Bool := permission = ("resources".toList, "view".toList, "*".toList)

/-- What the request for it asks the database. -/
def jobsQuery : Str :=
  "avg_over_time(slurm_nodes\x7bjob='slurm',partition='".toList ++ jobsPartition ++ "'\x7d[30s])[1h:30s]".toList

/-- The metrics of the nodes are asked for, and those of the jobs are read. -/
theorem partition_reads_jobs :
    onlyResources Metric.jobs.permission = false ∧
    metrics onlyResources (some slurm) false "nodes".toList ⟨none, some jobsPartition, .ok none, .ok none⟩ 0 =
      .ok [slurm.url ("query?query=".toList ++ jobsQuery)] ∧
    UrlQuery.request (slurm.url ("query?query=".toList ++ jobsQuery)) =
      some (slurm.url "query".toList, [(utf8 "query".toList, utf8 jobsQuery)]) ∧
    (tokens (utf8 jobsQuery)).any (fun read => read.contains (.word (utf8 "slurm_jobs".toList))) = true ∧
    ¬ AllRead (slurm.request .nodes "hour".toList (some jobsPartition) none none 0)
      (slurm.intended .nodes "hour".toList (some jobsPartition) none none) := by
  refine ⟨by decide +kernel, by decide +kernel, by decide +kernel, by decide +kernel, ?_⟩
  rw [partition_reads_iff rfl slurm _ (.inr (by simp))]
  decide

end SlurmWeb.Metrics
