import SlurmWeb.Assistant.Renormalise
import SlurmWeb.Chat.StreamChat

/-!
# Asking a provider (slurmweb/ai/providers.py)

Each provider has a format of its own for the messages of the planner: the system messages stay in line for some, and
have one place of their own for the others.

| here | there |
| --- | --- |
| `normalizeMessages` | `_normalize_messages` (:88) |
| `ProviderClient`, `getProviderClient` | the client classes, `get_provider_client` (:296) |
| `ProviderClient.request` | `complete` up to the request (:126, :150, :179, :225, :271) |
| `plannerSystem` | `_build_planner_messages` (service.py:485), the text of the tools being a parameter |

`Body.heard` is what a provider makes of a request.

* `request_heard` — what each provider hears of the planner's messages.
* `accepted_usable_iff` — which of the accepted configurations can be asked.
* `tools_ignored_iff` — the chats in which the model is never told of the tools.
-/

namespace SlurmWeb.Chat

open Strings Py Assistant

variable {F : Type}

/-! ## Messages -/

inductive MessageRole
  | system | user | assistant
deriving DecidableEq

/-- A role that is none is the user's. -/
def normalizeRole (role : Str) : MessageRole :=
  if role = "system".toList then .system else if role = "assistant".toList then .assistant else .user

structure ProviderMessage where
  role : MessageRole
  content : Str
deriving DecidableEq

/-- `_normalize_messages` (:88), of messages whose contents are texts. -/
def normalizeMessages (messages : List (Str × Str)) : List ProviderMessage :=
  messages.map fun message => ⟨normalizeRole message.1, message.2⟩

/-! ## Requests -/

/-- `{"model", "messages", "temperature", "stream"}`, `temperature` among the options for ollama. -/
structure ChatBody (F : Type) where
  model : Option Str
  messages : List ProviderMessage
  temperature : F
  stream : Option Bool

/-- `{"model", "max_tokens", "messages", "system"}`; the content of a message is a list of text blocks. -/
structure AnthropicBody where
  model : Str
  maxTokens : Nat
  messages : List (MessageRole × List Str)
  system : Option Str

inductive GeminiRole
  | model | user
deriving DecidableEq

/-- `{"contents", "generationConfig", "systemInstruction"}`, with their parts. -/
structure GeminiBody (F : Type) where
  contents : List (GeminiRole × List Str)
  temperature : F
  systemInstruction : Option (List Str)

inductive Body (F : Type)
  | chat (body : ChatBody F)
  | anthropic (body : AnthropicBody)
  | gemini (body : GeminiBody F)

structure ProviderRequest (F : Type) where
  url : Str
  headers : List (Str × Str)
  json : Body F
  timeout : Int

inductive ProviderClient
  | openAICompatible | azureOpenAI | anthropic | googleGemini | ollama
deriving DecidableEq

/-- `get_provider_client` (:296) -/
def getProviderClient (provider : Str) : Option ProviderClient :=
  if provider ∈ ["openai", "openai-compatible", "qwen", "deepseek", "kimi"].map String.toList then
    some .openAICompatible
  else if provider = "azure-openai".toList then some .azureOpenAI
  else if provider = "anthropic".toList then some .anthropic
  else if provider = "google".toList then some .googleGemini
  else if provider = "ollama".toList then some .ollama
  else none

/-- `str(value or default)` -/
def textOr (value : Option Str) (default : Str) : Str :=
  match value with
  | some text => if text = [] then default else text
  | none => default

/-- `text.rstrip("/")` -/
def rstripSlash (text : Str) : Str := text.rdropWhile (· = '/')

/-- `_timeout` (:104) -/
def timeout (config : Config F) : Int := if config.requestTimeout.getD 0 = 0 then 60 else config.requestTimeout.getD 0

/-- `_temperature` (:108) -/
def temperature [Python F] (config : Config F) : F :=
  config.temperature.getD (Python.div (Python.literal 2) (Python.literal 10))

/-- `_system_prompt` (:113) -/
def systemPrompt (config : Config F) : Str := strip (config.systemPrompt.getD [])

/-- The loop of the clients with a place for the system prompt: the configured one, or the first message of the system;
the other ones are left out (:183, :231). -/
def splitSystem (prompt : Str) : List ProviderMessage → Str × List ProviderMessage
  | [] => (prompt, [])
  | message :: messages =>
    if message.role = .system then splitSystem (if prompt = [] then message.content else prompt) messages
    else
      let (prompt, rest) := splitSystem prompt messages
      (prompt, message :: rest)

def jsonHeaders (secret : Str) : List (Str × Str) :=
  [("Authorization".toList, "Bearer ".toList ++ secret), ("Content-Type".toList, "application/json".toList)]

namespace ProviderClient

variable [Python F]

/-- `complete`, up to the request. -/
def request (client : ProviderClient) (config : Config F) (secret : Str) (messages : List (Str × Str)) :
    Except Str (ProviderRequest F) :=
  match client with
  | .openAICompatible => .ok
      { url := rstripSlash (textOr config.baseUrl "https://api.openai.com/v1") ++ "/chat/completions".toList
        headers := jsonHeaders secret
        json := .chat ⟨some config.model, normalizeMessages messages, temperature config, some false⟩
        timeout := timeout config }
  | .azureOpenAI =>
    let baseUrl := rstripSlash (config.baseUrl.getD [])
    let deployment := strip (config.deployment.getD [])
    let apiVersion := strip (textOr config.apiVersion "2024-08-01-preview")
    if baseUrl = [] ∨ deployment = [] then .error "Azure OpenAI requires base_url and deployment"
    else .ok
      { url := baseUrl ++ "/openai/deployments/".toList ++ deployment ++
          "/chat/completions?api-version=".toList ++ apiVersion
        headers := [("api-key".toList, secret), ("Content-Type".toList, "application/json".toList)]
        json := .chat ⟨none, normalizeMessages messages, temperature config, none⟩
        timeout := timeout config }
  | .anthropic =>
    let (system, kept) := splitSystem (systemPrompt config) (normalizeMessages messages)
    .ok
      { url := rstripSlash (textOr config.baseUrl "https://api.anthropic.com/v1") ++ "/messages".toList
        headers := [("x-api-key".toList, secret), ("anthropic-version".toList, "2023-06-01".toList),
          ("Content-Type".toList, "application/json".toList)]
        json := .anthropic ⟨config.model, 1024, kept.map fun message => (message.role, [message.content]),
          if system = [] then none else some system⟩
        timeout := timeout config }
  | .googleGemini =>
    let (system, kept) := splitSystem (systemPrompt config) (normalizeMessages messages)
    .ok
      { url := rstripSlash (textOr config.baseUrl "https://generativelanguage.googleapis.com/v1beta") ++
          "/models/".toList ++ config.model ++ ":generateContent?key=".toList ++ secret
        headers := [("Content-Type".toList, "application/json".toList)]
        json := .gemini ⟨kept.map fun message =>
          (if message.role = .assistant then .model else .user, [message.content]),
          temperature config, if system = [] then none else some [system]⟩
        timeout := timeout config }
  | .ollama => .ok
      { url := rstripSlash (textOr config.baseUrl "http://localhost:11434") ++ "/api/chat".toList
        headers := [("Content-Type".toList, "application/json".toList)]
        json := .chat ⟨some config.model, normalizeMessages messages, temperature config, some false⟩
        timeout := timeout config }

end ProviderClient

/-! ## What a provider hears -/

inductive Turn
  | user | assistant
deriving DecidableEq

/-- The instructions, and the conversation. -/
structure Heard where
  system : List Str
  turns : List (Turn × Str)
deriving DecidableEq

def MessageRole.turn : MessageRole → Option Turn
  | .system => none
  | .user => some .user
  | .assistant => some .assistant

def ProviderMessage.turn (message : ProviderMessage) : Option (Turn × Str) := message.role.turn.map fun turn =>
  (turn, message.content)

def ProviderMessage.instruction (message : ProviderMessage) : Option Str :=
  if message.role = .system then some message.content else none

def GeminiRole.turn : GeminiRole → Turn
  | .model => .assistant
  | .user => .user

/-- A text of several blocks, or parts, is read as one. -/
def Body.heard : Body F → Heard
  | .chat body => ⟨body.messages.filterMap ProviderMessage.instruction, body.messages.filterMap ProviderMessage.turn⟩
  | .anthropic body => ⟨body.system.toList,
      body.messages.filterMap fun message => message.1.turn.map fun turn => (turn, message.2.flatten)⟩
  | .gemini body => ⟨(body.systemInstruction.map List.flatten).toList,
      body.contents.map fun content => (content.1.turn, content.2.flatten)⟩

/-- Whether the system messages stay in line. -/
def ProviderClient.inline : ProviderClient → Bool
  | .openAICompatible | .azureOpenAI | .ollama => true
  | .anthropic | .googleGemini => false

/-- What the messages say, whatever the format. -/
def said (messages : List (Str × Str)) : Heard :=
  ⟨(normalizeMessages messages).filterMap ProviderMessage.instruction,
    (normalizeMessages messages).filterMap ProviderMessage.turn⟩

theorem splitSystem_kept : ∀ (prompt : Str) (messages : List ProviderMessage),
    (splitSystem prompt messages).2 = messages.filter fun message => message.role ≠ .system
  | _, [] => rfl
  | prompt, message :: messages => by
    rw [splitSystem]
    by_cases hrole : message.role = .system
    · rw [if_pos hrole, splitSystem_kept, List.filter_cons_of_neg (by simpa using hrole)]
    · rw [if_neg hrole, List.filter_cons_of_pos (by simpa using hrole)]
      exact congrArg (message :: ·) (splitSystem_kept prompt messages)

/-- A prompt that is configured stays. -/
theorem splitSystem_prompt : ∀ {prompt : Str} (_ : prompt ≠ []) (messages : List ProviderMessage),
    (splitSystem prompt messages).1 = prompt
  | _, _, [] => rfl
  | prompt, h, message :: messages => by
    rw [splitSystem, if_neg h]
    split
    next => exact splitSystem_prompt h messages
    next => exact splitSystem_prompt h messages

/-- Without one the first text of the system is the prompt. -/
theorem splitSystem_nil : ∀ (messages : List ProviderMessage),
    (splitSystem [] messages).1 = ((messages.filterMap ProviderMessage.instruction).find? (· ≠ [])).getD []
  | [] => rfl
  | message :: messages => by
    rw [splitSystem]
    by_cases hrole : message.role = .system
    · have hsays : message.instruction = some message.content := if_pos hrole
      rw [if_pos hrole, if_pos rfl, List.filterMap_cons_some hsays]
      by_cases hcontent : message.content = []
      · rw [hcontent, splitSystem_nil, List.find?_cons_of_neg (by simp)]
      · rw [splitSystem_prompt hcontent, List.find?_cons_of_pos (by simpa using hcontent), Option.getD_some]
    · have hsays : message.instruction = none := if_neg hrole
      rw [if_neg hrole, List.filterMap_cons_none hsays]
      exact splitSystem_nil messages

/-- Nothing but the conversation is kept. -/
theorem turns_filter (messages : List ProviderMessage) :
    (messages.filter fun message => message.role ≠ .system).filterMap ProviderMessage.turn =
      messages.filterMap ProviderMessage.turn := by
  induction messages with
  | nil => rfl
  | cons message messages ih =>
    by_cases hrole : message.role = .system
    · have hsilent : message.turn = none := by
        rw [ProviderMessage.turn, hrole]
        rfl
      rw [List.filter_cons_of_neg (by simpa using hrole), List.filterMap_cons_none hsilent, ih]
    · rw [List.filter_cons_of_pos (by simpa using hrole), List.filterMap_cons, List.filterMap_cons, ih]

theorem turns_blocks (messages : List ProviderMessage) :
    ((messages.map fun message => (message.role, [message.content])).filterMap fun message : MessageRole × List Str =>
      message.1.turn.map fun turn => (turn, message.2.flatten)) = messages.filterMap ProviderMessage.turn := by
  rw [List.filterMap_map]
  refine List.filterMap_congr fun message _ => ?_
  dsimp only [Function.comp_apply, ProviderMessage.turn]
  rw [List.flatten_singleton]

theorem turns_parts {messages : List ProviderMessage} (h : ∀ message ∈ messages, message.role ≠ .system) :
    ((messages.map fun message : ProviderMessage =>
      ((if message.role = .assistant then .model else .user : GeminiRole), [message.content])).map
      fun content : GeminiRole × List Str => (content.1.turn, content.2.flatten)) =
        messages.filterMap ProviderMessage.turn := by
  induction messages with
  | nil => rfl
  | cons message messages ih =>
    have hrest := ih fun m hm => h m (List.mem_cons_of_mem _ hm)
    obtain ⟨role, content⟩ := message
    cases role with
    | system => exact absurd rfl (h _ List.mem_cons_self)
    | user =>
      rw [List.map_cons, List.map_cons, hrest, List.flatten_singleton]
      rfl
    | assistant =>
      rw [List.map_cons, List.map_cons, hrest, List.flatten_singleton]
      rfl

/-- The instructions of a client with one place for them. -/
def onlyInstruction (prompt : Str) (instructions : List Str) : List Str :=
  let chosen := if prompt = [] then (instructions.find? (· ≠ [])).getD [] else prompt
  if chosen = [] then [] else [chosen]

theorem splitSystem_only (prompt : Str) (messages : List ProviderMessage) :
    (if (splitSystem prompt messages).1 = [] then [] else [(splitSystem prompt messages).1]) =
      onlyInstruction prompt (messages.filterMap ProviderMessage.instruction) := by
  have hprompt : (splitSystem prompt messages).1 =
      if prompt = [] then ((messages.filterMap ProviderMessage.instruction).find? (· ≠ [])).getD [] else prompt := by
    split
    next h => rw [h, splitSystem_nil]
    next h => rw [splitSystem_prompt h]
  rw [hprompt]
  rfl

section Heard

variable [Python F]

/-- **What a provider hears of the messages**: the whole conversation, and every instruction or one. -/
theorem request_heard {client : ProviderClient} {config : Config F} {secret : Str} {messages : List (Str × Str)}
    {request : ProviderRequest F} (h : client.request config secret messages = .ok request) :
    request.json.heard =
      ⟨if client.inline then (said messages).system else onlyInstruction (systemPrompt config) (said messages).system,
        (said messages).turns⟩ := by
  have hkept := splitSystem_kept (systemPrompt config) (normalizeMessages messages)
  have honly := splitSystem_only (systemPrompt config) (normalizeMessages messages)
  cases client with
  | openAICompatible =>
    obtain rfl := Except.ok.inj h
    rfl
  | azureOpenAI =>
    unfold ProviderClient.request at h
    dsimp only at h
    split at h
    · cases h
    · obtain rfl := Except.ok.inj h
      rfl
  | anthropic =>
    obtain rfl := Except.ok.inj h
    refine congrArg₂ Heard.mk ?_ ?_
    · refine Eq.trans ?_ honly
      dsimp only
      split <;> rfl
    · exact (turns_blocks _).trans ((congrArg _ hkept).trans (turns_filter _))
  | googleGemini =>
    obtain rfl := Except.ok.inj h
    refine congrArg₂ Heard.mk ?_ ?_
    · refine Eq.trans ?_ honly
      dsimp only
      split <;> simp
    · refine (turns_parts fun message hmessage => ?_).trans ((congrArg _ hkept).trans (turns_filter _))
      rw [hkept] at hmessage
      simpa using (List.mem_filter.1 hmessage).2
  | ollama =>
    obtain rfl := Except.ok.inj h
    rfl

end Heard

/-- A model of anthropic's with a prompt of its own. -/
def prompted : Config ℚ where
  name := "claude"
  provider := "anthropic"
  model := "claude"
  displayName := "Claude"
  enabled := true
  isDefault := true
  sortOrder := 0
  baseUrl := none
  deployment := none
  apiVersion := none
  systemPrompt := some "Answer in French."
  requestTimeout := none
  temperature := none
  extraOptions := []

def promptedMessages : List (Str × Str) :=
  [("system".toList, "Tools: job".toList), ("system".toList, "Answer in French.".toList), ("user".toList, "m1".toList)]

def promptedRequest : ProviderRequest ℚ where
  url := "https://api.anthropic.com/v1/messages"
  headers := [("x-api-key".toList, "key".toList), ("anthropic-version".toList, "2023-06-01".toList),
    ("Content-Type".toList, "application/json".toList)]
  json := .anthropic ⟨"claude", 1024, [(.user, ["m1".toList])], some "Answer in French.".toList⟩
  timeout := 60

theorem request_heard_prompted : promptedRequest.json.heard = ⟨["Answer in French.".toList],
    [(.user, "m1".toList)]⟩ := by
  have hrequest : ProviderClient.anthropic.request prompted "key" promptedMessages = .ok promptedRequest := rfl
  exact (request_heard hrequest).trans (by decide)

/-! ## The planner -/

/-- The system messages of `_build_planner_messages` (service.py:485): the text of the tools, and the
configured prompt. -/
def plannerSystem (instructions : Str) (config : Config F) : List (Str × Str) :=
  ("system".toList, instructions) ::
    if config.systemPrompt.getD [] = [] then [] else [("system".toList, config.systemPrompt.getD [])]

/-- A chat with a provider, `answer` being what `complete` makes of the response. -/
def ChatRun.through [Python F] (chat : ChatRun F) (client : ProviderClient) (config : Config F) (secret : Str)
    (answer : Nat → ProviderRequest F → Except Str Str) (instructions : Str) : ChatRun F :=
  { chat with
    systemMessages := plannerSystem instructions config
    complete := fun n messages => client.request config secret messages >>= answer n }

/-- A client that is configured: azure's needs an address and a deployment. -/
def ProviderClient.Usable [Python F] (client : ProviderClient) (config : Config F) (secret : Str) : Prop :=
  ∀ messages, ∃ request, client.request config secret messages = .ok request

/-- The providers with a client are the supported ones. -/
theorem getProviderClient_isSome (provider : Str) : (getProviderClient provider).isSome = true ↔
    provider ∈ supportedProviders := by
  have hlisted : ∀ p ∈ supportedProviders, (getProviderClient p).isSome = true := by decide
  refine ⟨fun h => ?_, hlisted provider⟩
  unfold getProviderClient at h
  have hcompatible : ∀ p ∈ ["openai", "openai-compatible", "qwen", "deepseek", "kimi"].map String.toList,
      p ∈ supportedProviders := by
    decide
  split_ifs at h with hopen hazure hanthropic hgoogle hollama
  · exact hcompatible provider hopen
  · exact hazure ▸ by decide
  · exact hanthropic ▸ by decide
  · exact hgoogle ▸ by decide
  · exact hollama ▸ by decide
  · cases h

theorem getProviderClient_azure {provider : Str} :
    getProviderClient provider = some .azureOpenAI ↔ provider = "azure-openai".toList := by
  constructor
  · intro h
    unfold getProviderClient at h
    split_ifs at h with hopen hazure hanthropic hgoogle hollama
    · cases h
    · exact hazure
    all_goals cases h
  · rintro rfl
    decide

/-- **What the normaliser accepts can be asked**, unless the address of azure is made of slashes. -/
theorem accepted_usable_iff [Python F] {config : Config F} (h : config.Normal) (secret : Str) :
    ∃ client, getProviderClient config.provider = some client ∧ (client.Usable config secret ↔
      (config.provider = "azure-openai".toList → rstripSlash (config.baseUrl.getD []) ≠ [])) := by
  obtain ⟨client, hclient⟩ := Option.isSome_iff_exists.1 ((getProviderClient_isSome config.provider).2 h.supported)
  refine ⟨client, hclient, ?_⟩
  by_cases hazure : config.provider = "azure-openai".toList
  · obtain rfl := Option.some.inj (hclient.symm.trans (getProviderClient_azure.2 hazure))
    obtain ⟨deployment, hdeployment⟩ : ∃ d, config.deployment = some d := by
      have := (h.azure hazure).2
      cases hd : config.deployment with
      | none => exact absurd (by rw [hd]; rfl) this
      | some d => exact ⟨d, rfl⟩
    have hne : strip (config.deployment.getD []) ≠ [] := by
      rw [hdeployment, Option.getD_some, h.deployment deployment hdeployment]
      exact fun hnil => (h.azure hazure).2 (by rw [hdeployment, hnil]; rfl)
    have husable : ProviderClient.azureOpenAI.Usable config secret ↔ rstripSlash (config.baseUrl.getD []) ≠ [] := by
      unfold ProviderClient.Usable ProviderClient.request
      dsimp only
      by_cases hbase : rstripSlash (config.baseUrl.getD []) = []
      · simp [hbase]
      · simp [hbase, hne]
    rw [husable]
    exact ⟨fun hbase _ => hbase, fun hbase => hbase hazure⟩
  · refine iff_of_true (fun messages => ?_) fun h => absurd h hazure
    cases client with
    | azureOpenAI => exact absurd (getProviderClient_azure.1 hclient) hazure
    | openAICompatible | anthropic | googleGemini | ollama => exact ⟨_, rfl⟩

section Planner

variable [Python F]

/-- With a prompt of its own the request has no text of the tools. -/
theorem request_ignores {client : ProviderClient} {config : Config F} {secret : Str} (hinline : client.inline = false)
    (hprompt : systemPrompt config ≠ []) (instructions instructions' : Str) (working : List (Str × Str)) :
    client.request config secret (plannerSystem instructions config ++ working) =
      client.request config secret (plannerSystem instructions' config ++ working) := by
  have hdropped : ∀ text, splitSystem (systemPrompt config) (normalizeMessages (plannerSystem text config ++ working)) =
      splitSystem (systemPrompt config) (normalizeMessages ((plannerSystem text config).tail ++ working)) := by
    intro text
    have hcons : normalizeMessages (plannerSystem text config ++ working) =
        ⟨.system, text⟩ :: normalizeMessages ((plannerSystem text config).tail ++ working) := rfl
    rw [hcons, splitSystem, if_pos rfl, if_neg hprompt]
  have hsame : splitSystem (systemPrompt config) (normalizeMessages (plannerSystem instructions config ++ working)) =
      splitSystem (systemPrompt config) (normalizeMessages (plannerSystem instructions' config ++ working)) :=
    (hdropped instructions).trans (hdropped instructions').symm
  cases client with
  | openAICompatible | azureOpenAI | ollama => cases hinline
  | anthropic | googleGemini => simp only [ProviderClient.request, hsame]

theorem rounds_ignore {chat : ChatRun F} {client : ProviderClient} {config : Config F} {secret : Str}
    (hinline : client.inline = false)
    (hprompt : systemPrompt config ≠ []) (answer : Nat → ProviderRequest F → Except Str Str)
      (instructions instructions' : Str) :
    ∀ (left n : Nat) (working : List (Str × Str)),
      (chat.through client config secret answer instructions).rounds left n working =
        (chat.through client config secret answer instructions').rounds left n working
  | 0, _, _ => rfl
  | left + 1, n, working => by
    have hround : (chat.through client config secret answer instructions).round n working =
        (chat.through client config secret answer instructions').round n working := by
      have hcomplete : (chat.through client config secret answer instructions).complete n
          (plannerSystem instructions config ++ working) =
          (chat.through client config secret answer instructions').complete n
            (plannerSystem instructions' config ++ working) :=
        congrArg (· >>= answer n) (request_ignores hinline hprompt instructions instructions' working)
      unfold ChatRun.round
      rw [show (chat.through client config secret answer instructions).systemMessages =
        plannerSystem instructions config from rfl,
        show (chat.through client config secret answer instructions').systemMessages =
            plannerSystem instructions' config from rfl,
        hcomplete]
      rfl
    unfold ChatRun.rounds
    rw [hround]
    rcases (chat.through client config secret answer instructions').round n working with ⟨output, events, outcome⟩
    cases outcome with
    | again message =>
      dsimp only
      rw [rounds_ignore hinline hprompt answer instructions instructions' left (n + 1)]
    | answer text => rfl
    | raised message => rfl

/-- The first answer of a chat is to its first request. -/
theorem outputs_head (chat : ChatRun F) (start : ChatStart) :
    (chat.generate start).outputs.head? = some (chat.round 0 start.workingMessages).1 := by
  have hpos : 0 < chat.maxRounds := by
    unfold ChatRun.maxRounds runtimeSetting
    split
    · omega
    · decide
  obtain ⟨left, hleft⟩ := Nat.exists_eq_add_one.2 hpos
  unfold ChatRun.generate
  rw [hleft]
  dsimp only
  unfold ChatRun.rounds
  rcases chat.round 0 start.workingMessages with ⟨output, events, outcome⟩
  cases outcome <;> rfl

theorem round_output (chat : ChatRun F) (n : Nat) (working : List (Str × Str)) :
    (chat.round n working).1 = chat.complete n (chat.systemMessages ++ working) := by
  unfold ChatRun.round
  split
  next h => exact h.symm
  next h => exact h.symm

/-- A provider that answers with what it was told. -/
def echo (_ : Nat) (request : ProviderRequest F) : Except Str Str := .ok request.json.heard.system.flatten

theorem echo_tells {chat : ChatRun F} {start : ChatStart} {client : ProviderClient} {config : Config F} {secret : Str}
    (husable : client.Usable config secret) (htold : client.inline = true ∨ systemPrompt config = []) :
    ∃ rest : Str, ∀ instructions ≠ [], ((chat.through client config secret echo instructions).generate
      start).outputs.head? = some (.ok (instructions ++ rest)) := by
  let others (instructions : Str) : List Str :=
    (said ((plannerSystem instructions config).tail ++ start.workingMessages)).system
  refine ⟨if client.inline then (others []).flatten else [], fun instructions hne => ?_⟩
  have hsaid : (said (plannerSystem instructions config ++ start.workingMessages)).system =
      instructions :: others [] := rfl
  obtain ⟨request, hrequest⟩ := husable (plannerSystem instructions config ++ start.workingMessages)
  have hcomplete : (chat.through client config secret echo instructions).complete 0
      (plannerSystem instructions config ++ start.workingMessages) =
      .ok request.json.heard.system.flatten := congrArg (· >>= echo 0) hrequest
  rw [outputs_head, round_output]
  refine congrArg some (hcomplete.trans (congrArg Except.ok ?_))
  rw [request_heard hrequest, hsaid]
  cases hinline : client.inline with
  | true => rw [if_pos rfl, if_pos rfl, List.flatten_cons]
  | false =>
    have hprompt : systemPrompt config = [] := htold.resolve_left (by rw [hinline]; exact Bool.false_ne_true)
    have honly : onlyInstruction [] (instructions :: others []) = [instructions] := by
      unfold onlyInstruction
      rw [if_pos rfl, List.find?_cons_of_pos (by simpa using hne), Option.getD_some]
      exact if_neg hne
    rw [if_neg Bool.false_ne_true, if_neg Bool.false_ne_true, hprompt, honly, List.flatten_singleton, List.append_nil]

/-- **A chat does not depend on the tools it may call** when the client has one place for instructions and
the model has a prompt of its own. -/
theorem tools_ignored_iff (chat : ChatRun F) (start : ChatStart) {client : ProviderClient}
    {config : Config F} {secret : Str} (husable : client.Usable config secret) :
    (∀ answer instructions instructions', instructions ≠ [] → instructions' ≠ [] →
      (chat.through client config secret answer instructions).generate start =
        (chat.through client config secret answer instructions').generate start) ↔
      client.inline = false ∧ systemPrompt config ≠ [] := by
  constructor
  · intro h
    by_contra hnot
    have htold : client.inline = true ∨ systemPrompt config = [] := by
      by_cases hinline : client.inline = true
      · exact .inl hinline
      · exact .inr (not_not.1 fun hprompt => hnot ⟨Bool.eq_false_of_not_eq_true hinline, hprompt⟩)
    obtain ⟨rest, hecho⟩ := @echo_tells F _ chat start client config secret husable htold
    have hsame := congrArg (fun trace : ChatRun.Trace F => trace.outputs.head?)
      (h echo ['a'] ['b'] (List.cons_ne_nil _ _) (List.cons_ne_nil _ _))
    rw [hecho ['a'] (List.cons_ne_nil _ _), hecho ['b'] (List.cons_ne_nil _ _)] at hsame
    cases hsame
  · rintro ⟨hinline, hprompt⟩ answer instructions instructions' - -
    unfold ChatRun.generate
    rw [show (chat.through client config secret answer instructions).maxRounds = chat.maxRounds from rfl,
      show (chat.through client config secret answer instructions').maxRounds = chat.maxRounds from rfl,
      rounds_ignore hinline hprompt answer instructions instructions']
    rfl

end Planner

theorem tools_ignored_prompted :
    (∀ answer instructions instructions', instructions ≠ [] → instructions' ≠ [] →
      ((chatOn 100 (fun _ => []) fun _ _ _ => .error (.execution [] none none)).through .anthropic prompted "key"
        answer instructions).generate started =
        ((chatOn 100 (fun _ => []) fun _ _ _ => .error (.execution [] none none)).through .anthropic
          prompted "key" answer instructions').generate started) ↔
      ProviderClient.anthropic.inline = false ∧ systemPrompt prompted ≠ [] :=
  tools_ignored_iff _ _ fun _ => ⟨_, rfl⟩

end SlurmWeb.Chat
