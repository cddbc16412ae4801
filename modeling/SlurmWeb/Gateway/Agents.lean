import SlurmWeb.Lib.Dict
import SlurmWeb.Lib.Lists
import SlurmWeb.Lib.IsoTime
import SlurmWeb.Lib.PyValue

/-!
# Agents of the gateway (slurmweb/apps/gateway.py, slurmweb/views/gateway.py)

The gateway polls the agents of its configuration, keeps for five minutes those of a version it supports,
and lists their clusters with what the user may do there.

| here | there |
| --- | --- |
| `versionTuple`, `versionCompare` | `version_greater_or_equal` (apps/gateway.py:103) |
| `fromJson`, `getAgentInfo` | `SlurmwebAgent.from_json` (:80), `_get_agent_info` (:365) |
| `getAgentsInfo`, `refreshAgents` | `_get_agents_info` (:420), `refresh_agents` (:443) |
| `getCluster`, `getClusters` | `get_cluster` (views/gateway.py:130), `get_clusters` (:173) |

A connection is refused where it is entered, which is in the `try` of a poll and in none when permissions are asked.

* `version_lexicographic` — versions of numbers compare number by number.
* `served_fresh` — what a request is served, in any run of requests.
* `listed_iff` — the clusters that are listed, and when the list is.
-/

namespace SlurmWeb.Gateway

open Strings IsoTime Py

/-! ## Versions -/

inductive Part
  | number (n : Int)
  | text (s : Str)
deriving DecidableEq

/-- `str(part)` -/
def Part.str : Part → Str
  | .number n => (toString n).toList
  | .text s => s

variable (int : Str → Option Int)

/-- `int_or_str` (:106), `int` being `int(part)`. -/
def intOrStr (part : Str) : Part := (int part).elim (.text part) .number

def versionTuple (version : Str) : List Part := (version.splitOn '.').map (intOrStr int)

/-- `compare` (:115): from the first parts that differ on. -/
def versionCompare : List Part → List Part → Bool
  | a :: reference, b :: version =>
    if a = b then versionCompare reference version
    else match a, b with
      | .number m, .number n => m ≤ n
      | a, b => a.str ≤ b.str
  | reference, version => reference.length ≤ version.length

/-- `version_greater_or_equal` (:103) -/
def versionGreaterOrEqual (reference version : Str) : Bool := versionCompare (versionTuple int reference)
  (versionTuple int version)

/-- Digits, not more than `int` converts. -/
def Digits (part : Str) : Prop := part ≠ [] ∧ (∀ c ∈ part, isDigit c = true) ∧ part.length ≤ maxStrDigits

/-- Numbers, with dots between them. -/
def Numeric (version : Str) : Prop := ∀ part ∈ version.splitOn '.', Digits part

def numbers (version : Str) : List Nat := (version.splitOn '.').map value

theorem versionCompare_numbers : ∀ (a b : List Nat),
    versionCompare (a.map fun n : Nat => .number n) (b.map fun n : Nat => .number n) = true ↔ ¬b < a
  | [], [] => iff_of_true rfl (List.not_lt_nil _)
  | [], _ :: _ => iff_of_true rfl (List.not_lt_nil _)
  | m :: a, [] => iff_of_false (by simp [versionCompare]) fun h => h (List.nil_lt_cons m a)
  | m :: a, n :: b => by
    rw [List.cons_lt_cons_iff, List.map_cons, List.map_cons]
    unfold versionCompare
    by_cases h : m = n
    · have hparts : Part.number (m : Int) = .number n := by rw [h]
      rw [if_pos hparts, versionCompare_numbers a b]
      constructor
      · rintro hle (hlt | ⟨-, hlt⟩)
        · omega
        · exact hle hlt
      · exact fun hnot hlt => hnot (.inr ⟨h.symm, hlt⟩)
    · have hparts : Part.number (m : Int) ≠ .number n := fun heq => h (by injection heq with heq; exact_mod_cast heq)
      rw [if_neg hparts]
      simp only [Nat.cast_le, decide_eq_true_eq]
      constructor
      · rintro hle (hlt | ⟨heq, -⟩)
        · omega
        · exact h heq.symm
      · intro hnot
        have := not_or.1 hnot
        omega

theorem versionTuple_numeric (hint : ∀ digits : Str, Digits digits → int digits = some (value digits : Int))
    {version : Str} (h : Numeric version) : versionTuple int version = (numbers version).map fun n :
      Nat => .number n := by
  rw [versionTuple, numbers, List.map_map]
  refine List.map_congr_left fun part hpart => ?_
  rw [intOrStr, hint part (h part hpart)]
  rfl

/-- **Versions of numbers compare like the lists of their numbers**, whatever `int` makes of other parts. -/
theorem version_lexicographic (hint : ∀ digits : Str, Digits digits → int digits = some (value digits : Int))
    {reference version : Str} (hreference : Numeric reference) (hversion : Numeric version) :
    versionGreaterOrEqual int reference version = true ↔ numbers reference ≤ numbers version := by
  rw [versionGreaterOrEqual, versionTuple_numeric int hint hreference, versionTuple_numeric int hint hversion,
    versionCompare_numbers, not_lt]

theorem pyInt_reads (digits : Str) (h : Digits digits) : pyInt digits = some (value digits : Int) :=
  pyInt_digits h.1 h.2.1 h.2.2

theorem numeric_iff (version : Str) : Numeric version ↔
    ((version.splitOn '.').all fun part => part ≠ [] &&
      (part.all isDigit && decide (part.length ≤ maxStrDigits))) = true := by
  simp [Numeric, Digits]

/-- 10 is more than 9. -/
theorem version_lexicographic_ten : versionGreaterOrEqual pyInt "6.9" "6.10.1" = true ↔
    numbers "6.9" ≤ numbers "6.10.1" :=
  version_lexicographic pyInt pyInt_reads ((numeric_iff _).2 (by decide)) ((numeric_iff _).2 (by decide))

/-! ## Polls -/

structure RacksDB where
  enabled : Bool
  version : Str
  infrastructure : Str
deriving DecidableEq

/-- The fields of an answer of `/info`; each may be missing. -/
structure AgentInfo where
  version : Option Str
  cluster : Option Str
  racksdb : Option (Option RacksDB)
  metrics : Option Bool
  cache : Option Bool
  database : Option Bool
  persistence : Option Bool
  accessControl : Option Bool
  nodeMetrics : Option Bool
  userMetrics : Option Bool

structure SlurmwebAgent where
  version : Str
  cluster : Str
  racksdb : RacksDB
  metrics : Bool
  cache : Bool
  database : Bool
  url : Str
  persistence : Bool
  accessControl : Bool
  nodeMetrics : Bool
  userMetrics : Bool
deriving DecidableEq

/-- `SlurmwebAgent.from_json` (:80): a missing field is a `SlurmwebAgentError`, which the poll catches. A
`racksdb` without its three fields is a `TypeError`, which nothing catches. -/
def fromJson (url : Str) (data : AgentInfo) : Except Py.Error (Option SlurmwebAgent) :=
  match data.version, data.cluster, data.racksdb with
  | some version, some cluster, some (some racksdb) =>
    match data.metrics, data.cache, data.database with
    | some metrics, some cache, some database => .ok (some
        { version, cluster, racksdb, metrics, cache, database, url
          persistence := data.persistence.getD false
          accessControl := data.accessControl.getD false
          nodeMetrics := data.nodeMetrics.getD false
          userMetrics := data.userMetrics.getD false })
    | _, _, _ => .ok none
  | some _, some _, some none => .error .typeError
  | _, _, _ => .ok none

/-- What a poll of an agent meets; an error that is none of the caught ones is `raised`. -/
inductive PollAnswer
  | connectionError
  | contentTypeError
  | raised (err : Py.Error)
  | response (status : Nat) (data : AgentInfo)

structure AgentsSettings where
  url : List Str
  version : Str
  racksdbVersion : Str

variable (settings : AgentsSettings)

/-- Of a version the gateway supports. -/
def Supported (agent : SlurmwebAgent) : Prop :=
  versionGreaterOrEqual int settings.version agent.version = true ∧
    (agent.racksdb.enabled = true → versionGreaterOrEqual int settings.racksdbVersion agent.racksdb.version = true)

instance (agent : SlurmwebAgent) : Decidable (Supported int settings agent) := inferInstanceAs (Decidable (_ ∧ _))

/-- `_get_agent_info` (:365) -/
def getAgentInfo (url : Str) : PollAnswer → Except Py.Error (Option SlurmwebAgent)
  | .connectionError | .contentTypeError => .ok none
  | .raised err => .error err
  | .response status data =>
    if status ≠ 200 then .ok none
    else do
      let agent ← fromJson url data
      return agent.filter fun agent => Supported int settings agent

/-- A poll of every agent: their answers, and the time at which the last has answered. -/
structure Poll where
  answers : Str → PollAnswer
  done : Int

/-- `_get_agents_info` (:420): of two agents of one cluster the later. -/
def getAgentsInfo (answers : Str → PollAnswer) : Except Py.Error (Dict Str SlurmwebAgent) := do
  let agents ← settings.url.mapM fun url => getAgentInfo int settings url (answers url)
  return Dict.ofList ((agents.filterMap id).map fun agent => (agent.cluster, agent))

/-- `_agents` and `_agents_timeout`. -/
structure State where
  agents : Dict Str SlurmwebAgent
  agentsTimeout : Int

def State.initial : State := ⟨∅, 0⟩

/-- A request for the agents, at a time, with the poll it would make. -/
structure Call where
  force : Bool
  now : Int
  poll : Poll

/-- `refresh_agents` (:443): what it returns, and the state after it. -/
def refreshAgents (s : State) (call : Call) : Except Py.Error (Dict Str SlurmwebAgent) × State :=
  if call.force = false ∧ call.now < s.agentsTimeout then (.ok s.agents, s)
  else match getAgentsInfo int settings call.poll.answers with
    | .error err => (.error err, s)
    | .ok agents => (.ok agents, ⟨agents, call.poll.done + 300⟩)

/-- The state after the calls. -/
def run (calls : List Call) : State := calls.foldl (fun s call => (refreshAgents int settings s call).2) .initial

variable {int settings}

/-! ## What a poll finds -/

/-- An agent that answers at an address, of a version the gateway supports. -/
def FoundAt (int : Str → Option Int) (settings : AgentsSettings) (answers : Str → PollAnswer) (url : Str)
    (agent : SlurmwebAgent) : Prop :=
  ∃ data, answers url = .response 200 data ∧ fromJson url data = .ok (some agent) ∧ Supported int settings agent

theorem getAgentInfo_some {answers : Str → PollAnswer} {url : Str} {agent : SlurmwebAgent} :
    getAgentInfo int settings url (answers url) = .ok (some agent) ↔ FoundAt int settings answers url agent := by
  unfold FoundAt
  generalize answers url = answer
  cases answer with
  | connectionError => exact iff_of_false (by rintro ⟨⟩) (by rintro ⟨_, ⟨⟩, -⟩)
  | contentTypeError => exact iff_of_false (by rintro ⟨⟩) (by rintro ⟨_, ⟨⟩, -⟩)
  | raised err => exact iff_of_false (by rintro ⟨⟩) (by rintro ⟨_, ⟨⟩, -⟩)
  | response status data =>
    unfold getAgentInfo
    dsimp only
    by_cases hstatus : status = 200
    · subst hstatus
      rw [if_neg (not_not.2 rfl), Except.bind_eq_ok]
      constructor
      · rintro ⟨found, hfound, hfilter⟩
        obtain ⟨hsome, hsupported⟩ := Option.filter_eq_some_iff.1 (Except.ok.inj hfilter)
        exact ⟨data, rfl, by rw [hfound, hsome], of_decide_eq_true hsupported⟩
      · rintro ⟨data', hdata, hjson, hsupported⟩
        obtain rfl := (PollAnswer.response.inj hdata).2
        exact ⟨some agent, hjson, congrArg Except.ok (Option.filter_eq_some_iff.2 ⟨rfl, decide_eq_true hsupported⟩)⟩
    · rw [if_pos hstatus]
      refine iff_of_false (by rintro ⟨⟩) ?_
      rintro ⟨_, hdata, -⟩
      exact hstatus (PollAnswer.response.inj hdata).1

/-- What the agents of a poll are: each was found at an address, and no cluster of one that was found is missing. -/
structure Polled (int : Str → Option Int) (settings : AgentsSettings) (answers : Str → PollAnswer)
    (agents : Dict Str SlurmwebAgent) : Prop where
  sound : ∀ {cluster agent}, agents.get cluster = some agent →
    agent.cluster = cluster ∧ ∃ url ∈ settings.url, FoundAt int settings answers url agent
  complete : ∀ {url agent}, url ∈ settings.url → FoundAt int settings answers url agent →
    (agents.get agent.cluster).isSome = true

theorem getAgentsInfo_polled {answers : Str → PollAnswer} {agents : Dict Str SlurmwebAgent}
    (h : getAgentsInfo int settings answers = .ok agents) : Polled int settings answers agents := by
  obtain ⟨found, hfound, hagents⟩ := Except.bind_eq_ok.1 h
  obtain rfl := Except.ok.inj hagents
  have hall := Except.mapM_eq_ok.1 hfound
  constructor
  · intro cluster agent hget
    obtain hmem | hempty := Dict.get_update_mem hget
    · obtain ⟨agent', hagent', hpair⟩ := List.mem_map.1 hmem
      obtain ⟨rfl, rfl⟩ := Prod.mk.inj hpair
      obtain ⟨agent'', hin, hsome⟩ := List.mem_filterMap.1 hagent'
      obtain rfl : agent'' = some agent' := hsome
      obtain ⟨url, hurl, hpoll⟩ := hall.exists_left _ hin
      exact ⟨rfl, url, hurl, getAgentInfo_some.1 hpoll⟩
    · rw [Dict.get_empty] at hempty
      cases hempty
  · intro url agent hurl hat
    obtain ⟨found', hin, hpoll⟩ := hall.exists_right _ hurl
    rw [getAgentInfo_some.2 hat] at hpoll
    obtain rfl := Except.ok.inj hpoll
    have hpair : (agent.cluster, agent) ∈ (found.filterMap id).map fun agent => (agent.cluster, agent) :=
      List.mem_map.2 ⟨agent, List.mem_filterMap.2 ⟨some agent, hin, rfl⟩, rfl⟩
    rw [Dict.ofList, Dict.get_update, Dict.get_empty, Option.or_none, Option.isSome_map, List.find?_isSome]
    exact ⟨_, List.mem_reverse.2 hpair, decide_eq_true rfl⟩

/-! ## Runs -/

/-- The agents are of a poll, and are kept for five minutes. -/
def KeptFrom (int : Str → Option Int) (settings : AgentsSettings) (s : State) (polls : List Poll) : Prop :=
  s.agentsTimeout = 0 ∨ ∃ poll ∈ polls, getAgentsInfo int settings poll.answers = .ok s.agents ∧
    s.agentsTimeout = poll.done + 300

theorem keptFrom_refresh {s : State} {polls : List Poll} (h : KeptFrom int settings s polls) (call : Call) :
    KeptFrom int settings (refreshAgents int settings s call).2 (polls ++ [call.poll]) := by
  have hkept : KeptFrom int settings s (polls ++ [call.poll]) :=
    h.imp_right fun ⟨poll, hpoll, hagents⟩ => ⟨poll, List.mem_append_left _ hpoll, hagents⟩
  unfold refreshAgents
  split
  next => exact hkept
  next =>
    split
    next => exact hkept
    next agents hagents => exact .inr ⟨call.poll, by simp, hagents, rfl⟩

theorem run_append (calls : List Call) (call : Call) :
    run int settings (calls ++ [call]) = (refreshAgents int settings (run int settings calls) call).2 := by
  rw [run, List.foldl_append]
  rfl

theorem keptFrom_run (calls : List Call) : KeptFrom int settings (run int settings calls) (calls.map Call.poll) := by
  induction calls using List.reverseRecOn with
  | nil => exact .inl rfl
  | append_singleton calls call ih =>
    rw [run_append, List.map_append]
    exact keptFrom_refresh ih call

/-- A refresh that fails leaves the agents it found before. -/
theorem refresh_error {s : State} {call : Call} {err : Py.Error}
    (h : (refreshAgents int settings s call).1 = .error err) : (refreshAgents int settings s call).2 = s := by
  unfold refreshAgents at h ⊢
  split at h
  next => cases h
  next hpolls =>
    rw [if_neg hpolls]
    split at h
    next => rfl
    next => cases h

/-- **What a request is served**: the agents of its own poll, or those a poll of an earlier request found
less than five minutes before, unless a new poll is asked for. -/
theorem served_fresh {calls : List Call} {call : Call} {agents : Dict Str SlurmwebAgent} (hnow : 0 ≤ call.now)
    (h : (refreshAgents int settings (run int settings calls) call).1 = .ok agents) :
    ∃ poll, Polled int settings poll.answers agents ∧ (poll = call.poll ∨
      call.force = false ∧ poll ∈ calls.map Call.poll ∧ call.now < poll.done + 300) := by
  unfold refreshAgents at h
  split at h
  next hcached =>
    obtain rfl := Except.ok.inj h
    obtain hzero | ⟨poll, hpoll, hagents, htimeout⟩ := @keptFrom_run int settings calls
    · rw [hzero] at hcached
      omega
    · exact ⟨poll, getAgentsInfo_polled hagents, .inr ⟨hcached.1, hpoll, htimeout ▸ hcached.2⟩⟩
  next =>
    split at h
    next => cases h
    next agents' hagents =>
      obtain rfl := Except.ok.inj h
      exact ⟨call.poll, getAgentsInfo_polled hagents, .inl rfl⟩

/-- An agent of version 6, without a database. -/
def sixInfo : AgentInfo where
  version := some "6.0.0"
  cluster := some "tiny"
  racksdb := some (some ⟨false, "", ""⟩)
  metrics := some false
  cache := some false
  database := some false
  persistence := none
  accessControl := none
  nodeMetrics := none
  userMetrics := none

def tinySettings : AgentsSettings := ⟨["http://tiny".toList], "6.0.0", "0.5.0"⟩

/-- The agent answers once, and is down when it is polled again. -/
def tinyCall (now : Int) (answer : PollAnswer) : Call := ⟨false, now, ⟨fun _ => answer, now + 1⟩⟩

def tinyAgents : Dict Str SlurmwebAgent :=
  Dict.ofList [("tiny".toList, ⟨"6.0.0", "tiny", ⟨false, "", ""⟩, false, false, false, "http://tiny", false,
    false, false, false⟩)]

theorem served_tiny : (refreshAgents pyInt tinySettings (run pyInt tinySettings [tinyCall 1000 (.response 200 sixInfo)])
    (tinyCall 1200 .connectionError)).1 = .ok tinyAgents := by
  rfl

theorem served_fresh_tiny : ∃ poll, Polled pyInt tinySettings poll.answers tinyAgents ∧
    (poll = (tinyCall 1200 .connectionError).poll ∨ (tinyCall 1200 .connectionError).force = false ∧
      poll ∈ [tinyCall 1000 (.response 200 sixInfo)].map Call.poll ∧ 1200 < poll.done + 300) :=
  served_fresh (by decide) served_tiny

/-! ## The clusters that are listed -/

/-- What an agent answers when it is asked for permissions; `raised` is a connection that is refused, which
nothing catches. -/
inductive PermissionsAnswer
  | raised (err : Py.Error)
  | response (status : Nat) (actions : List Str)

structure ClusterDetails where
  name : Str
  racksdb : Bool
  infrastructure : Str
  metrics : Bool
  cache : Bool
  database : Bool
  actions : List Str
  persistence : Bool
  accessControl : Bool
  nodeMetrics : Bool
  userMetrics : Bool

/-- `get_cluster` (views/gateway.py:130) -/
def getCluster (hideDenied : Bool) (agent : SlurmwebAgent) : PermissionsAnswer → Except Py.Error (Option ClusterDetails)
  | .raised err => .error err
  | .response status actions =>
    if status ≠ 200 then .ok none
    else if actions.length = 0 ∧ hideDenied then .ok none
    else .ok (some
      { name := agent.cluster, racksdb := agent.racksdb.enabled, infrastructure := agent.racksdb.infrastructure
        metrics := agent.metrics, cache := agent.cache, database := agent.database, actions,
          persistence := agent.persistence
        accessControl := agent.accessControl, nodeMetrics := agent.nodeMetrics, userMetrics := agent.userMetrics })

/-- `get_clusters` (:173) -/
def getClusters (hideDenied : Bool) (agents : List SlurmwebAgent) (answers : Str → PermissionsAnswer) :
    Except Py.Error (List ClusterDetails) := do
  let clusters ← agents.mapM fun agent => getCluster hideDenied agent (answers agent.cluster)
  return clusters.filterMap id

/-- An agent that answers, with permissions that may be shown. -/
def Shows (hideDenied : Bool) (answer : PermissionsAnswer) : Prop :=
  ∃ actions, answer = .response 200 actions ∧ (actions ≠ [] ∨ hideDenied = false)

theorem getCluster_some {hideDenied : Bool} {agent : SlurmwebAgent} {answer : PermissionsAnswer} :
    (∃ details, getCluster hideDenied agent answer = .ok (some details) ∧ details.name = agent.cluster) ↔
      Shows hideDenied answer := by
  unfold Shows
  cases answer with
  | raised err => exact iff_of_false (by rintro ⟨_, ⟨⟩, -⟩) (by rintro ⟨_, ⟨⟩, -⟩)
  | response status actions =>
    unfold getCluster
    dsimp only
    by_cases hstatus : status = 200
    · subst hstatus
      rw [if_neg (not_not.2 rfl)]
      by_cases hhidden : actions.length = 0 ∧ hideDenied = true
      · rw [if_pos hhidden]
        refine iff_of_false (by rintro ⟨_, ⟨⟩, -⟩) ?_
        rintro ⟨actions', hactions, hne | hshown⟩
        · obtain rfl := (PermissionsAnswer.response.inj hactions).2
          exact hne (List.length_eq_zero_iff.1 hhidden.1)
        · rw [hshown] at hhidden
          exact Bool.false_ne_true hhidden.2
      · rw [if_neg hhidden]
        refine iff_of_true ⟨_, rfl, rfl⟩ ⟨actions, rfl, ?_⟩
        by_cases hne : actions = []
        · exact .inr (Bool.eq_false_of_not_eq_true fun hhide => hhidden ⟨by rw [hne]; rfl, hhide⟩)
        · exact .inl hne
    · rw [if_pos hstatus]
      refine iff_of_false (by rintro ⟨_, ⟨⟩, -⟩) ?_
      rintro ⟨_, hanswer, -⟩
      exact hstatus (PermissionsAnswer.response.inj hanswer).1

theorem getCluster_name {hideDenied : Bool} {agent : SlurmwebAgent} {answer : PermissionsAnswer}
    {details : ClusterDetails}
    (h : getCluster hideDenied agent answer = .ok (some details)) : details.name = agent.cluster := by
  unfold getCluster at h
  split at h
  · cases h
  · split at h
    · cases h
    · split at h
      · cases h
      · cases h
        rfl

theorem getCluster_returns {hideDenied : Bool} {agent : SlurmwebAgent} {answer : PermissionsAnswer} :
    Except.Returns (getCluster hideDenied agent answer) ↔ ∀ err, answer ≠ .raised err := by
  cases answer with
  | raised err => exact iff_of_false (Except.not_returns_error err) fun h => h err rfl
  | response status actions =>
    refine iff_of_true ?_ fun _ h => by cases h
    unfold getCluster
    dsimp only
    split
    · exact Except.returns_ok _
    · split <;> exact Except.returns_ok _

/-- A poll keeps an agent under the name of its cluster. -/
theorem Polled.values {answers : Str → PollAnswer} {agents : Dict Str SlurmwebAgent}
    (h : Polled int settings answers agents)
    {agent : SlurmwebAgent} : agent ∈ agents.values ↔ agents.get agent.cluster = some agent := by
  rw [Dict.mem_values_iff]
  constructor
  · rintro ⟨cluster, hget⟩
    rwa [(h.sound hget).1]
  · exact fun hget => ⟨_, hget⟩

/-- **The clusters that are listed** are those with an agent whose permissions may be shown, and there is a
list where no agent refuses the connection. -/
theorem listed_iff {calls : List Call} {call : Call} {agents : Dict Str SlurmwebAgent} (hnow : 0 ≤ call.now)
    (h : (refreshAgents int settings (run int settings calls) call).1 = .ok agents) (hideDenied : Bool)
    (answers : Str → PermissionsAnswer) :
    (Except.Returns (getClusters hideDenied agents.values answers) ↔
      ∀ cluster, (agents.get cluster).isSome = true → ∀ err, answers cluster ≠ .raised err) ∧
    ∀ list, getClusters hideDenied agents.values answers = .ok list → ∀ name,
      name ∈ list.map ClusterDetails.name ↔ (agents.get name).isSome = true ∧ Shows hideDenied (answers name) := by
  obtain ⟨poll, hpolled, -⟩ := served_fresh hnow h
  constructor
  · have hloop : Except.Returns (getClusters hideDenied agents.values answers) ↔
        Except.Returns (agents.values.mapM fun agent => getCluster hideDenied agent (answers agent.cluster)) :=
      (Except.returns_bind_const (p := True) fun _ _ => iff_of_true ⟨_, rfl⟩ True.intro).trans (iff_of_eq (and_true _))
    rw [hloop, Except.returns_mapM]
    constructor
    · intro hall cluster hsome
      obtain ⟨agent, hget⟩ := Option.isSome_iff_exists.1 hsome
      have hcluster := (hpolled.sound hget).1
      have hreturns := hall agent (Dict.mem_values_iff.2 ⟨_, hget⟩)
      rw [hcluster] at hreturns
      exact getCluster_returns.1 hreturns
    · intro hall agent hagent
      exact getCluster_returns.2 (hall agent.cluster (Option.isSome_iff_exists.2 ⟨_, hpolled.values.1 hagent⟩))
  · intro list hlist name
    obtain ⟨found, hfound, hkept⟩ := Except.bind_eq_ok.1 hlist
    obtain rfl := Except.ok.inj hkept
    have hall := Except.mapM_eq_ok.1 hfound
    simp only [List.mem_map, List.mem_filterMap, id_eq, exists_eq_right]
    constructor
    · rintro ⟨details, hdetails, rfl⟩
      obtain ⟨agent, hagent, hshown⟩ := hall.exists_left _ hdetails
      have hname := getCluster_name hshown
      rw [hname]
      exact ⟨Option.isSome_iff_exists.2 ⟨_, hpolled.values.1 hagent⟩, getCluster_some.1 ⟨details, hshown, hname⟩⟩
    · rintro ⟨hsome, hshows⟩
      obtain ⟨agent, hget⟩ := Option.isSome_iff_exists.1 hsome
      obtain rfl := (hpolled.sound hget).1
      obtain ⟨details, hdetails, hname⟩ := (@getCluster_some _ agent _).2 hshows
      obtain ⟨found', hin, heq⟩ := hall.exists_right _ (hpolled.values.2 hget)
      rw [hdetails] at heq
      obtain rfl := Except.ok.inj heq
      exact ⟨details, hin, hname⟩

def pairSettings : AgentsSettings := ⟨["http://tiny".toList, "http://big"], "6.0.0", "0.5.0"⟩

/-- Both agents answer. -/
def pairCall : Call :=
  ⟨false, 1000, ⟨fun url => .response 200
    { sixInfo with cluster := some (if url = "http://big".toList then "big" else "tiny") }, 1001⟩⟩

def pairAgents : Dict Str SlurmwebAgent :=
  Dict.ofList [("tiny".toList, ⟨"6.0.0", "tiny", ⟨false, "", ""⟩, false, false, false, "http://tiny", false,
    false, false, false⟩),
    ("big".toList, ⟨"6.0.0", "big", ⟨false, "", ""⟩, false, false, false, "http://big", false, false, false, false⟩)]

theorem served_pair : (refreshAgents pyInt pairSettings (run pyInt pairSettings []) pairCall).1 = .ok pairAgents := by
  rfl

/-- The permissions of one of two clusters. -/
def bigAnswers (big : PermissionsAnswer) (cluster : Str) : PermissionsAnswer :=
  if cluster = "big".toList then big else .response 200 ["view-jobs"]

/-- A refused connection leaves no list, a refused request the other cluster. -/
theorem listed_iff_pair : ¬Except.Returns
    (getClusters true pairAgents.values (bigAnswers (.raised (.other "ClientConnectorError")))) ∧
    ∀ list, getClusters true pairAgents.values (bigAnswers (.response 403 [])) = .ok list → ∀ name,
      name ∈ list.map ClusterDetails.name ↔
        (pairAgents.get name).isSome = true ∧ Shows true (bigAnswers (.response 403 []) name) := by
  constructor
  · intro hreturns
    have hall := (listed_iff (by decide) served_pair true (bigAnswers (.raised (.other "ClientConnectorError")))).1.1
      hreturns
    exact hall "big" (by decide) _ rfl
  · exact (listed_iff (by decide) served_pair true (bigAnswers (.response 403 []))).2

end SlurmWeb.Gateway
