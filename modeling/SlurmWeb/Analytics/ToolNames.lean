import SlurmWeb.Analytics.Aggregate
import SlurmWeb.Lib.Except

/-!
# Names of tools (slurmweb/persistence/user_analytics_store.py)

The tool of a job is read off its name, its command or the line that submitted it, and may be renamed by
the rules of a mapping file.

| here | there |
| --- | --- |
| `basenameToken` | `_basename_token` (:46) |
| `normalizeCandidate` | `_normalize_candidate` (:53) |
| `shlexSplit` | `shlex.split` |
| `commandFirstToolToken` | `_command_first_tool_token` (:67) |
| `Rule`, `classify` | `ToolNameMapper` (:86) |
| `classifyDailyTool` | `_classify_daily_tool` (:434) |

A pattern of a rule is its `search`. Quotes around blanks leave a blank string, of which `split()[0]` is taken.

* `normalizeCandidate_name` — what a name is cleaned to.
* `tool_names_iff` — when a job has a tool.
-/

namespace SlurmWeb.Analytics

open Strings Py

/-! ## Paths -/

def isQuote (c : Char) : Bool := c == '"' || c == '\''

/-- `.strip("\"'")` -/
def stripQuotes (s : Str) : Str := stripBy isQuote s

def isSep (c : Char) : Bool := c == '/' || c == '\\'

/-- What follows the first separator. -/
def afterSep (path : Str) : Str := (path.dropWhile (!isSep ·)).drop 1

/-- `normp[:8].upper() == "\\\\?\\UNC\\"` -/
def hasUncPrefix (path : Str) : Bool :=
  (path.take 8).map (fun c => if c = '/' then '\\' else c.toUpper) == "\\\\?\\UNC\\".toList

/-- `ntpath.splitroot(path)[2]`: the path without its drive and its root. -/
def ntTail : Str → Str
  | a :: b :: path =>
    if isSep a then
      if isSep b then
        let start := if hasUncPrefix (a :: b :: path) then 8 else 2
        afterSep (afterSep ((a :: b :: path).drop start))
      else b :: path
    else if b == ':' then
      match path with
      | c :: rest => if isSep c then rest else path
      | [] => []
    else a :: b :: path
  | [a] => if isSep a then [] else [a]
  | [] => []

/-- `ntpath.basename` -/
def ntBasename (path : Str) : Str := (ntTail path).rtakeWhile (!isSep ·)

/-- `posixpath.basename` -/
def posixBasename (path : Str) : Str := path.rtakeWhile (· != '/')

/-- `_basename_token` (:46) -/
def basenameToken (token : Str) : Str := strip (posixBasename (ntBasename (stripQuotes (strip token))))

/-- `value.rsplit(".", 1)[0]` -/
def beforeLastDot (value : Str) : Str := if '.' ∈ value then (value.rdropWhile (· != '.')).dropLast else value

/-! ## Candidates -/

def isEdge (c : Char) : Bool := c == '-' || c == '_' || c == '.' || c == '+'

/-- `[0-9A-Za-z._+-]` -/
def isKept (c : Char) : Bool := c.isAlphanum || isEdge c

/-- `re.sub(r"[^0-9A-Za-z._+-]+", "-", value)`; `inRun` says that a run of other characters has begun. -/
def dashRuns (inRun : Bool) : Str → Str
  | [] => []
  | c :: value =>
    if isKept c then c :: dashRuns false value else if inRun then dashRuns true value else '-' :: dashRuns true value

/-- From a word to a name (:60). -/
def cleanWord (word : Str) : Str :=
  let value := basenameToken word
  let stem := beforeLastDot value
  let value := if stem = [] then value else stem
  (stripBy isEdge (dashRuns false value)).map Char.toLower

/-- `_normalize_candidate` (:53) -/
def normalizeCandidate : Option Str → Except Py.Error (Option Str)
  | none => .ok none
  | some candidate =>
    let value := stripQuotes (strip candidate)
    if value = [] then .ok none
    else match words value with
      | [] => .error (.other "IndexError")
      | word :: _ =>
        let value := cleanWord word
        .ok (if value = [] then none else some value)

/-! ## Commands -/

/-- The state of `shlex.read_token`; `escape` keeps the state it goes back to. -/
inductive LexState
  | gap
  | word
  | quote (q : Char)
  | escape (back : Option Char)

/-- The whitespace of `shlex`. -/
def isLexSpace (c : Char) : Bool := c == ' ' || c == '\t' || c == '\r' || c == '\n'

/-- `shlex.split`, with the token that is being read and whether a part of it was quoted;
`none` is a `ValueError`. -/
def shlexRead (state : LexState) (token : Str) (quoted : Bool) : Str → Option (List Str)
  | [] =>
    match state with
    | .gap | .word => some (if token ≠ [] ∨ quoted then [token] else [])
    | .quote _ | .escape _ => none
  | c :: rest =>
    match state with
    | .gap | .word =>
      if isLexSpace c then
        if token ≠ [] ∨ quoted then (token :: ·) <$> shlexRead .gap [] false rest else shlexRead .gap [] quoted rest
      else if c = '\\' then shlexRead (.escape none) token quoted rest
      else if isQuote c then shlexRead (.quote c) token true rest
      else shlexRead .word (token ++ [c]) quoted rest
    | .quote q =>
      if c = q then shlexRead .word token quoted rest
      else if c = '\\' ∧ q = '"' then shlexRead (.escape (some q)) token quoted rest
      else shlexRead (.quote q) (token ++ [c]) quoted rest
    | .escape none => shlexRead .word (token ++ [c]) quoted rest
    | .escape (some q) =>
      -- within quotes only the quote and the backslash are escaped
      shlexRead (.quote q) (token ++ if c ≠ '\\' ∧ c ≠ q then ['\\', c] else [c]) quoted rest

def shlexSplit (s : Str) : Option (List Str) := shlexRead .gap [] false s

/-- The token of a command that names its program: options and assignments are passed over (:74). -/
def firstToolToken : List Str → Option Str
  | [] => none
  | token :: tokens =>
    let token := strip token
    if token = [] then firstToolToken tokens
    else if token.head? = some '-' then firstToolToken tokens
    else if '=' ∈ token ∧ '/' ∉ token ∧ '\\' ∉ token then firstToolToken tokens
    else some token

/-- The token of a command, if there is one. -/
def commandToken (command : Option Str) : Option Str :=
  firstToolToken (match command with
    | none => []
    | some command => (shlexSplit command).getD (words command))

/-- `_command_first_tool_token` (:67) -/
def commandFirstToolToken (command : Option Str) : Except Py.Error (Option Str) :=
  normalizeCandidate (commandToken command)

/-! ## Rules -/

def unknown : Str := "unknown".toList

/-- A rule of the mapping file (:109). -/
structure Rule where
  search : Str → Bool
  tool : Str
  normalized : ∃ text value, normalizeCandidate text = .ok value ∧ tool = value.getD unknown

/-- The tool of the first rule that matches the candidate. -/
def mapped (rules : List Rule) (candidate : Option Str) : Option Str :=
  candidate.bind fun candidate => (rules.find? fun rule => rule.search candidate).map Rule.tool

/-- The submit line is read when the command gives no name (:114). -/
def commandTool (command submitLine : Option Str) : Except Py.Error (Option Str) := do
  match ← commandFirstToolToken command with
  | some tool => return some tool
  | none => commandFirstToolToken submitLine

/-- `ToolNameMapper.classify` (:112) -/
def classify (rules : List Rule) (jobName command submitLine : Option Str) : Except Py.Error Str := do
  let jobNameTool ← normalizeCandidate jobName
  let commandTool ← commandTool command submitLine
  let candidate := (mapped rules jobNameTool).or (mapped rules commandTool)
  return candidate.getD ((jobNameTool.or commandTool).getD unknown)

/-- A pattern and the tool of the jobs it finds (:452). -/
structure Rewrite where
  search : Str → Bool
  tool : Str

variable {F : Type} [Python F]

/-- A text of a row; a value of another type is turned into one. -/
def rowText : Value F → Option Str
  | .none => none
  | .str text => some text
  | value => some (Python.str value)

/-- `_classify_daily_tool` (:434); a row has no `submit_line`. -/
def classifyDailyTool (rules raw : List Rule) (rewrite : Option Rewrite) (row : DailySource F) :
    Except Py.Error Str := do
  let command := if row.command.truthy then rowText row.command else none
  let mappedTool ← classify rules (rowText row.jobName) command none
  match rewrite with
  | none => return mappedTool
  | some rewrite =>
    let rawTool ← classify raw (rowText row.jobName) command none
    return if rewrite.search mappedTool || rewrite.search rawTool then rewrite.tool else mappedTool

/-! ## Names -/

/-- The names of tools. -/
def isName (c : Char) : Bool := c.isDigit || c.isLower || isEdge c

structure ToolName (name : Str) : Prop where
  nonempty : name ≠ []
  chars : ∀ c ∈ name, isName c = true
  head : ∀ c ∈ name.head?, isEdge c = false
  last : ∀ c ∈ name.getLast?, isEdge c = false

theorem toolName_unknown : ToolName unknown := by
  have hfirst : unknown.head? = some 'u' := by decide
  have hlast : unknown.getLast? = some 'n' := by decide
  refine ⟨by decide, List.all_eq_true.1 (by decide), ?_, ?_⟩
  · rw [hfirst]
    rintro _ ⟨⟩
    rfl
  · rw [hlast]
    rintro _ ⟨⟩
    rfl

theorem isEdge_cases {c : Char} (h : isEdge c = true) : c = '-' ∨ c = '_' ∨ c = '.' ∨ c = '+' := by
  simpa [isEdge, or_assoc] using h

theorem isAlpha_of_isEdge {c : Char} (h : isEdge c = true) : c.isAlpha = false := by
  rcases isEdge_cases h with rfl | rfl | rfl | rfl <;> rfl

theorem isEdge_toLower (c : Char) : isEdge c.toLower = isEdge c := by
  by_cases hupper : c.isUpper = true
  · have halpha : c.isAlpha = true := by simp [Char.isAlpha, hupper]
    have hc : ¬isEdge c = true := fun h => by simp [isAlpha_of_isEdge h] at halpha
    have hlower : ¬isEdge c.toLower = true := fun h => by
      have := isAlpha_of_isEdge h
      rw [Char.isAlpha_toLower_eq_isAlpha, halpha] at this
      cases this
    rw [Bool.eq_false_iff.2 hc, Bool.eq_false_iff.2 hlower]
  · rw [Char.toLower_eq_of_not_isUpper hupper]

theorem isName_toLower {c : Char} (h : isKept c = true) : isName c.toLower = true := by
  rw [isName, isEdge_toLower, Char.isLower_toLower_eq_isAlpha]
  simp only [isKept, Char.isAlphanum, Bool.or_eq_true] at h ⊢
  rcases h with (halpha | hdigit) | hedge
  · exact .inl (.inr halpha)
  · have hupper : ¬c.isUpper = true := by
      simp only [Char.isDigit, Char.isUpper, Bool.and_eq_true, decide_eq_true_eq, ge_iff_le,
        UInt32.le_iff_toNat_le] at hdigit ⊢
      have hdigit : 48 ≤ c.toNat ∧ c.toNat ≤ 57 := hdigit
      change ¬(65 ≤ c.toNat ∧ c.toNat ≤ 90)
      omega
    exact .inl (.inl (by rw [Char.toLower_eq_of_not_isUpper hupper, hdigit]))
  · exact .inr hedge

theorem isKept_of_mem_dashRuns {c : Char} : ∀ {value : Str} {inRun : Bool}, c ∈ dashRuns inRun value → isKept c = true
  | [], _, h => by cases h
  | a :: value, inRun, h => by
    rw [dashRuns] at h
    split at h
    · rcases List.mem_cons.1 h with rfl | h
      · assumption
      · exact isKept_of_mem_dashRuns h
    · split at h
      · exact isKept_of_mem_dashRuns h
      · rcases List.mem_cons.1 h with rfl | h
        · rfl
        · exact isKept_of_mem_dashRuns h

theorem toolName_cleanWord {word : Str} (h : cleanWord word ≠ []) : ToolName (cleanWord word) := by
  have hkept : ∀ c ∈ cleanWord word, isName c = true := by
    intro c hc
    obtain ⟨a, ha, rfl⟩ := List.mem_map.1 hc
    exact isName_toLower (isKept_of_mem_dashRuns (mem_stripBy ha))
  refine ⟨h, hkept, fun c hc => ?_, fun c hc => ?_⟩
  · rw [cleanWord, List.head?_map] at hc
    obtain ⟨a, ha, rfl⟩ := Option.mem_map.1 hc
    rw [isEdge_toLower]
    exact stripBy_head a ha
  · rw [cleanWord, List.getLast?_map] at hc
    obtain ⟨a, ha, rfl⟩ := Option.mem_map.1 hc
    rw [isEdge_toLower]
    exact stripBy_getLast a ha

/-- Quotes around blanks only. -/
def quotedBlank (text : Str) : Bool :=
  let value := stripQuotes (strip text)
  value ≠ [] && value.all isSpace

/-- **What a text is cleaned to:** it raises on quotes around blanks, and is otherwise a name or nothing. -/
theorem normalizeCandidate_returns {candidate : Option Str} :
    Except.Returns (normalizeCandidate candidate) ↔ ∀ text ∈ candidate, quotedBlank text = false := by
  cases candidate with
  | none => simp [normalizeCandidate]
  | some text =>
    have hwords : words (stripQuotes (strip text)) = [] ↔ (stripQuotes (strip text)).all isSpace = true := by
      rw [words_eq_nil_iff, List.all_eq_true]
    simp only [normalizeCandidate, quotedBlank, Option.mem_some_iff, forall_eq']
    by_cases hnil : stripQuotes (strip text) = []
    · simp [hnil]
    · rw [if_neg hnil]
      cases hw : words (stripQuotes (strip text)) with
      | nil => simp [hnil, hwords.1 hw]
      | cons word rest =>
        have hnot : (stripQuotes (strip text)).all isSpace = false :=
          Bool.eq_false_iff.2 fun hall => by simp [hwords.2 hall] at hw
        simp [hnot]

theorem normalizeCandidate_name {candidate : Option Str} {name : Str}
    (h : normalizeCandidate candidate = .ok (some name)) : ToolName name := by
  cases candidate with
  | none => cases h
  | some text =>
    simp only [normalizeCandidate] at h
    split at h
    · cases h
    · split at h
      · cases h
      · rename_i word _ _
        by_cases hnil : cleanWord word = []
        · rw [if_pos hnil] at h
          cases h
        · rw [if_neg hnil] at h
          rw [← Option.some.inj (Except.ok.inj h)]
          exact toolName_cleanWord hnil

theorem Rule.toolName (rule : Rule) : ToolName rule.tool := by
  obtain ⟨text, value, hvalue, htool⟩ := rule.normalized
  rw [htool]
  cases value with
  | none => exact toolName_unknown
  | some name => exact normalizeCandidate_name hvalue

theorem mapped_name {rules : List Rule} {candidate : Option Str} {name : Str} (h : mapped rules candidate = some name) :
    ToolName name := by
  obtain ⟨text, -, h⟩ := Option.bind_eq_some_iff.1 h
  obtain ⟨rule, -, rfl⟩ := Option.map_eq_some_iff.1 h
  exact rule.toolName

/-- A job can be classified: no text that is cleaned is quotes around blanks only. The line that submitted it is only
read when the command gives no name. -/
structure Readable (jobName command submitLine : Option Str) : Prop where
  name_readable : ∀ text ∈ jobName, quotedBlank text = false
  command_readable : ∀ token ∈ commandToken command, quotedBlank token = false
  line_readable : commandFirstToolToken command = .ok none → ∀ token ∈ commandToken submitLine,
    quotedBlank token = false

theorem commandTool_returns {command submitLine : Option Str} : Except.Returns (commandTool command submitLine) ↔
    Except.Returns (commandFirstToolToken command) ∧
      (commandFirstToolToken command = .ok none → Except.Returns (commandFirstToolToken submitLine)) := by
  rw [commandTool]
  cases commandFirstToolToken command with
  | error e => simp
  | ok tool => cases tool <;> simp

theorem commandTool_name {command submitLine : Option Str} {name : Str}
    (h : commandTool command submitLine = .ok (some name)) : ToolName name := by
  obtain ⟨tool, hcommand, h⟩ := Except.bind_eq_ok.1 h
  cases tool with
  | none => exact normalizeCandidate_name h
  | some tool =>
    cases h
    exact normalizeCandidate_name hcommand

theorem classify_returns {rules : List Rule} {jobName command submitLine : Option Str} :
    Except.Returns (classify rules jobName command submitLine) ↔ Readable jobName command submitLine := by
  rw [classify, Except.returns_bind_const (p := Except.Returns (commandTool command submitLine)) fun jobNameTool _ =>
    ?_, commandTool_returns, commandFirstToolToken, commandFirstToolToken,
    normalizeCandidate_returns, normalizeCandidate_returns, normalizeCandidate_returns]
  · exact ⟨fun h => ⟨h.1, h.2.1, h.2.2⟩, fun h => ⟨h.1, h.2, h.3⟩⟩
  · rw [Except.returns_bind]
    constructor
    · rintro ⟨tool, htool, -⟩
      exact ⟨tool, htool⟩
    · rintro ⟨tool, htool⟩
      exact ⟨tool, htool, Except.returns_ok _⟩

/-- Every tool a job is given is a name. -/
theorem classify_name {rules : List Rule} {jobName command submitLine : Option Str} {tool : Str}
    (h : classify rules jobName command submitLine = .ok tool) : ToolName tool := by
  obtain ⟨jobNameTool, hjobName, h⟩ := Except.bind_eq_ok.1 h
  obtain ⟨commandTool, hcommand, h⟩ := Except.bind_eq_ok.1 h
  cases h
  cases hmapped : (mapped rules jobNameTool).or (mapped rules commandTool) with
  | some name =>
    rcases Option.or_eq_some_iff.1 hmapped with hname | ⟨-, hname⟩
    · exact mapped_name hname
    · exact mapped_name hname
  | none =>
    cases hor : jobNameTool.or commandTool with
    | none => exact toolName_unknown
    | some name =>
      rcases Option.or_eq_some_iff.1 hor with rfl | ⟨-, rfl⟩
      · exact normalizeCandidate_name hjobName
      · exact commandTool_name hcommand

/-! ## Rows -/

def rowCommand (row : DailySource F) : Option Str := if row.command.truthy then rowText row.command else none

/-- The texts of a row that count can be cleaned. -/
def ReadableRow (row : DailySource F) : Prop := Readable (rowText row.jobName) (rowCommand row) none

theorem classifyDailyTool_returns {rules raw : List Rule} {rewrite : Option Rewrite} {row : DailySource F} :
    Except.Returns (classifyDailyTool rules raw rewrite row) ↔ ReadableRow row := by
  rw [classifyDailyTool, ← rowCommand, ReadableRow, ← @classify_returns rules]
  rw [Except.returns_bind]
  constructor
  · rintro ⟨tool, htool, -⟩
    exact ⟨tool, htool⟩
  · rintro ⟨tool, htool⟩
    refine ⟨tool, htool, ?_⟩
    cases rewrite with
    | none => exact Except.returns_ok _
    | some rewrite =>
      -- the mapper without rules reads the same texts
      obtain ⟨rawTool, hraw⟩ := (@classify_returns raw _ _ _).2 (classify_returns.1 ⟨tool, htool⟩)
      dsimp only
      rw [hraw]
      exact Except.returns_ok _

section Rows
variable {classify : DailySource F → Except Py.Error Str}

/-- A row with a date and a user. -/
def HasIdentity (row : DailySource F) : Prop := row.activityDate ≠ none ∧ row.userId ≠ none

theorem aggregateRow_classified {groups : Groups F} {stats : AggregateStats} {row : DailySource F}
    (h : Except.Returns (aggregateRow classify groups stats row)) (hidentity : HasIdentity row) :
      Except.Returns (classify row) := by
  unfold aggregateRow at h
  cases hdate : row.activityDate with
  | none => exact absurd hdate hidentity.1
  | some date =>
    cases huser : row.userId with
    | none => exact absurd huser hidentity.2
    | some user =>
      rw [hdate, huser] at h
      obtain ⟨tool, htool, -⟩ := Except.returns_bind.1 h
      exact ⟨tool, htool⟩

theorem aggregateRows_classified : ∀ {rows : List (DailySource F)} {groups : Groups F} {stats : AggregateStats},
    Except.Returns (aggregateRows classify groups stats rows) → ∀ row ∈ rows, HasIdentity row →
      Except.Returns (classify row)
  | [], _, _, _, _, h, _ => by cases h
  | row :: rows, groups, stats, h, r, hr, hidentity => by
    obtain ⟨⟨groups', stats'⟩, hrow, hrest⟩ := Except.returns_bind.1 h
    rcases List.mem_cons.1 hr with rfl | hr
    · exact aggregateRow_classified ⟨_, hrow⟩ hidentity
    · exact aggregateRows_classified hrest r hr hidentity

theorem aggregateRow_congr {classify' : DailySource F → Except Py.Error Str} (groups : Groups F)
    (stats : AggregateStats) {row : DailySource F} (h : HasIdentity row → classify row = classify' row) :
    aggregateRow classify groups stats row = aggregateRow classify' groups stats row := by
  unfold aggregateRow
  cases hdate : row.activityDate with
  | none => rfl
  | some date =>
    cases huser : row.userId with
    | none => rfl
    | some user =>
      dsimp only
      rw [h ⟨by simp [hdate], by simp [huser]⟩]

theorem aggregateRows_congr {classify' : DailySource F → Except Py.Error Str} : ∀ {rows : List (DailySource F)}
    (groups : Groups F) (stats : AggregateStats), (∀ row ∈ rows, HasIdentity row → classify row = classify' row) →
    aggregateRows classify groups stats rows = aggregateRows classify' groups stats rows
  | [], _, _, _ => rfl
  | row :: rows, groups, stats, h => by
    rw [aggregateRows, aggregateRows, aggregateRow_congr groups stats (h row List.mem_cons_self)]
    refine congrArg _ (funext fun next => ?_)
    exact aggregateRows_congr _ _ fun r hr => h r (List.mem_cons_of_mem _ hr)

end Rows

/-- **Names and commands.** A job is given the name of a tool when its texts can be cleaned; the aggregation
then runs as with a mapper that never raises, and otherwise raises. -/
theorem tool_names_iff (rules raw : List Rule) (rewrite : Option Rewrite) :
    (∀ jobName command submitLine, (∃ tool, classify rules jobName command submitLine = .ok tool ∧ ToolName tool) ↔
      Readable jobName command submitLine) ∧
    ∀ rows : List (DailySource F),
      (Except.Returns (aggregate (classifyDailyTool rules raw rewrite) rows) → ∀ row ∈ rows,
        HasIdentity row → ReadableRow row) ∧
      ((∀ row ∈ rows, HasIdentity row → ReadableRow row) → ∃ tool : DailySource F → Str,
        aggregate (classifyDailyTool rules raw rewrite) rows = aggregate (fun row => .ok (tool row)) rows) := by
  refine ⟨fun jobName command submitLine => ?_, fun rows => ⟨fun h row hrow hidentity => ?_, fun h => ?_⟩⟩
  · rw [← @classify_returns rules]
    constructor
    · rintro ⟨tool, htool, -⟩
      exact ⟨tool, htool⟩
    · rintro ⟨tool, htool⟩
      exact ⟨tool, htool, classify_name htool⟩
  · obtain ⟨out, hrows, -⟩ := Except.returns_bind.1 h
    exact classifyDailyTool_returns.1 (aggregateRows_classified ⟨out, hrows⟩ row hrow hidentity)
  · have htools : ∀ row : DailySource F, ∃ tool, row ∈ rows → HasIdentity row →
        classifyDailyTool rules raw rewrite row = .ok tool := by
      intro row
      by_cases hrow : row ∈ rows ∧ HasIdentity row
      · obtain ⟨tool, htool⟩ := (@classifyDailyTool_returns _ _ rules raw rewrite row).2
          (h row hrow.1 hrow.2)
        exact ⟨tool, fun _ _ => htool⟩
      · exact ⟨unknown, fun h1 h2 => absurd ⟨h1, h2⟩ hrow⟩
    choose tool htool using htools
    refine ⟨tool, ?_⟩
    rw [aggregate, aggregate, aggregateRows_congr _ _ fun row hrow => htool row hrow]

/-- A job whose name is a blank in quotes. -/
def blankNamed : DailySource ℚ where
  activityDate := some 0
  userId := some 1
  jobName := .str "' '".toList
  command := .none
  usedMemoryGb := some 1
  usedCpuCoresAvg := none
  startTime := none
  endTime := none
  usageStats := .none

/-- Such a job has no tool, and none of the jobs aggregated with it is counted. -/
theorem blankNamed_raises : (∀ tool, classify [] (some "' '".toList) none none ≠ .ok tool) ∧
    aggregate (classifyDailyTool [] [] none) [blankNamed] = .error (.other "IndexError".toList) := by
  have hclassify : classify [] (some "' '".toList) none none = .error (.other "IndexError".toList) := by decide
  refine ⟨fun tool h => ?_, ?_⟩
  · rw [hclassify] at h
    cases h
  · have hrow : classifyDailyTool [] [] none blankNamed = .error (.other "IndexError".toList) := by
      change (classify [] (some "' '".toList) none none >>= _) = _
      rw [hclassify, Except.error_bind]
    rw [aggregate, aggregateRows, aggregateRow]
    dsimp only [blankNamed]
    rw [← blankNamed, hrow]
    rfl

end SlurmWeb.Analytics
