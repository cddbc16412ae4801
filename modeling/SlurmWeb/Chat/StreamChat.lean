import SlurmWeb.Assistant.Tools
import SlurmWeb.Chat.Context
import SlurmWeb.Chat.Planner
import SlurmWeb.Lib.Lists

/-!
# The rounds of a chat (slurmweb/ai/service.py)

`stream_chat` asks the model again and again, runs the tools it names, and ends with the text of a
final output. What the generator yields is a list of events.

| here | there |
| --- | --- |
| `ChatRun` | what `generate` (:575) calls: settings, provider, tools, tables |
| `ChatRun.round` | one turn of the loop (:588-675) |
| `ChatRun.rounds` | `for _ in range(max_rounds)` (:588) |
| `ChatRun.conclude` | the answer stored and streamed (:682-704) |
| `ChatRun.generate` | `generate` (:575) |
| `chunkText` | `_chunk_text` (:534) |

An exception is given by its text. Durations are left out, and `json.dumps` does not fail.

* `generate_grammar` — the language of the events.
* `answers_iff` — which outputs break a chat.
* `envelopes_hidden_iff` — which objects are shown.
-/

namespace SlurmWeb.Chat

open Strings Py Assistant

variable {F : Type}

/-- The events of a chat (`sse_event`). -/
inductive ChatEvent (F : Type)
  | conversation (conversationId messageId : Nat) (modelConfigId : Option Nat)
  | toolStart (toolName : Str) (interfaceKey : Option Str) (arguments : Value F)
  | toolEnd (toolName : Str) (interfaceKey : Option Str) (arguments : Value F) (statusCode : Nat)
      (resultSummary error : Option Str)
  | content (delta : Str)
  | complete (conversationId messageId : Nat) (modelConfigId : Option Nat)
  | error (message : Str)
  | done (conversationId : Nat)

def DEFAULT_MAX_ROUNDS : Nat := 4

def DEFAULT_STREAM_CHUNK_SIZE : Nat := 32

/-- What a chat calls. -/
structure ChatRun (F : Type) where
  /-- `int(settings.ai.max_rounds)` -/
  maxRoundsSetting : Option Int
  /-- `int(settings.ai.stream_chunk_size)` -/
  streamChunkSize : Option Int
  /-- How deep `json.loads` may recurse. -/
  recursionLimit : Nat
  /-- The system messages of `_build_planner_messages` (:485). -/
  systemMessages : List (Str × Str)
  /-- `client.complete` in a round. -/
  complete : Nat → List (Str × Str) → Except Str Str
  /-- `self.tools.execute` in a round. -/
  execute : Nat → Str → Arguments F → Except ToolError (ToolResult F)
  /-- The tables when the answer is stored. -/
  tables : Except Str AIConversationStore
  elapsed : Nat
  /-- `str(err)` -/
  errorText : ExecError → Str
  /-- The text of the error that refuses a message of an unknown conversation. -/
  foreignKeyText : Str

/-! ## Tools -/

/-- `except (AIToolExecutionError, AIToolPermissionError, KeyError, ValueError)` (:660) -/
def isCaught : ToolError → Bool
  | .permission .. | .execution .. => true
  | .other (.backend (.python .keyError)) | .other (.backend (.python .valueError)) => true
  | .other _ => false

def errorInterfaceKey : ToolError → Option Str
  | .permission _ interfaceKey _ => some interfaceKey
  | .execution _ interfaceKey _ => interfaceKey
  | .other _ => none

/-- `getattr(err, "status_code", 500) or 500` -/
def errorStatusCode : ToolError → Nat
  | .permission _ _ statusCode | .execution _ _ (some statusCode) => if statusCode = 0 then 500 else statusCode
  | _ => 500

/-- `text or None` -/
def orNone (text : Str) : Option Str := if text = [] then none else some text

/-- What a round leads to. -/
inductive RoundOutcome
  /-- Another round, with one more message. -/
  | again (message : Str)
  | answer (text : Str)
  | raised (message : Str)

def invalidInternalText : Str :=
  "Invalid internal tool metadata was returned. Do not expose tool request envelopes, interface metadata, or planning scratchpad. Either call another tool with strict tool_call JSON or answer with strict final JSON."

def invalidCallText (message : Str) : Str :=
  "Invalid tool call: ".toList ++ message ++
    " Do not emit empty tool calls. Retry with strict tool_call JSON using a valid interface_key, or answer with strict final JSON if no tool is needed.".toList

def fallbackText : Str := "I could not complete the request within the allowed tool rounds. Please refine the question."

section Rounds

variable [Python F]

/-- The message of a result (:645). -/
def resultText (toolName : Str) (result : ToolResult F) : Str :=
  "Internal tool result for planning only. Tool ".toList ++ toolName ++ " called interface ".toList ++
    result.interfaceKey ++
    " with arguments ".toList ++ Python.dumps (.dict result.arguments) ++ ". Result: ".toList ++
      Python.dumps result.result ++
    ". Do not repeat internal tool metadata to the user. If more information is needed, emit another tool_call JSON. Otherwise emit final JSON with a natural-language answer.".toList

def givenInterfaceKey (arguments : Arguments F) : Option Str := orNone (argument arguments "interface_key").strippedText

/-- `arguments.get("arguments") or {}` -/
def givenArguments (arguments : Arguments F) : Value F := (argument arguments "arguments").or (.dict [])

namespace ChatRun

variable (chat : ChatRun F)

def maxRounds : Nat := runtimeSetting chat.maxRoundsSetting DEFAULT_MAX_ROUNDS

def toolErrorText : ToolError → Str
  | .permission message _ _ | .execution message _ _ => message
  | .other err => chat.errorText err

def toolStart (toolName : Str) (arguments : Arguments F) : ChatEvent F :=
  .toolStart toolName (givenInterfaceKey arguments) (givenArguments arguments)

def resultEnd (toolName : Str) (result : ToolResult F) : ChatEvent F :=
  .toolEnd toolName (some result.interfaceKey) (.dict result.arguments) result.statusCode
    (some result.resultSummary) none

def errorEnd (toolName : Str) (arguments : Arguments F) (err : ToolError) : ChatEvent F :=
  .toolEnd toolName (((errorInterfaceKey err).bind orNone).or (givenInterfaceKey arguments)) (givenArguments arguments)
    (errorStatusCode err) none (some (chat.toolErrorText err))

/-- A tool call (:616-673). -/
def runTool (n : Nat) (toolName : Str) (arguments : Arguments F) : List (ChatEvent F) × RoundOutcome :=
  match chat.execute n toolName arguments with
  | .ok result => ([toolStart toolName arguments, resultEnd toolName result], .again (resultText toolName result))
  | .error err =>
    if isCaught err then
      ([toolStart toolName arguments, chat.errorEnd toolName arguments err],
        .again ("Tool error for ".toList ++ toolName ++ ": ".toList ++ chat.toolErrorText err))
    else ([toolStart toolName arguments], .raised (chat.toolErrorText err))

def pythonText (err : Py.Error) : Str := chat.errorText (.backend (.python err))

/-- A `tool_call` (:601): its arguments are asked for `get` before anything is yielded. -/
def callTool (n : Nat) (tool arguments : Value F) : List (ChatEvent F) × RoundOutcome :=
  match validateToolAction tool arguments with
  | .error (.invalid message) => ([], .again (invalidCallText message))
  | .error (.python err) => ([], .raised (chat.pythonText err))
  | .ok () =>
    match arguments.or (.dict []) with
    | .dict arguments => chat.runTool n tool.strippedText arguments
    | _ => ([], .raised (chat.pythonText .attributeError))

/-- What an output leads to. -/
def react (n : Nat) (output : Str) : List (ChatEvent F) × RoundOutcome :=
  match actionFromModelOutput chat.recursionLimit output with
  | .error err => ([], .raised (chat.pythonText err))
  | .ok (.invalidInternal _) => ([], .again invalidInternalText)
  | .ok (.toolCall tool arguments) => chat.callTool n tool arguments
  | .ok (.final content) => ([], .answer (answerText content output))

/-- One turn of the loop (:588). -/
def round (n : Nat) (working : List (Str × Str)) : Except Str Str × List (ChatEvent F) × RoundOutcome :=
  match chat.complete n (chat.systemMessages ++ working) with
  | .error message => (.error message, [], .raised message)
  | .ok output => (.ok output, chat.react n output)

/-- What the rounds come to: what the provider answered, the events, and the answer if there is one. -/
structure Planning (F : Type) where
  outputs : List (Except Str Str)
  events : List (ChatEvent F)
  answer : Except Str (Option Str)

/-- The rounds that are left, from round `n` on. -/
def rounds : Nat → Nat → List (Str × Str) → Planning F
  | 0, _, _ => ⟨[], [], .ok none⟩
  | left + 1, n, working =>
    let (output, events, outcome) := chat.round n working
    match outcome with
    | .again message =>
      let rest := rounds left (n + 1) (working ++ [("user".toList, message)])
      ⟨output :: rest.outputs, events ++ rest.events, rest.answer⟩
    | .answer text => ⟨[output], events, .ok (some text)⟩
    | .raised message => ⟨[output], events, .error message⟩

end ChatRun

end Rounds

/-! ## The answer -/

/-- `_chunk_text` (:534) -/
def chunkText (size : Nat) (text : Str) : List Str :=
  (List.range ((text.length + size - 1) / size)).map fun i => (text.drop (size * i)).take size

/-- `if not final_answer` (:677) -/
def finalAnswer (found : Option Str) : Str :=
  match found with
  | some text => if text = [] then fallbackText else text
  | none => fallbackText

namespace ChatRun

variable (chat : ChatRun F)

def chunkSize : Nat := runtimeSetting chat.streamChunkSize DEFAULT_STREAM_CHUNK_SIZE

/-- The answer stored and streamed (:682). -/
def conclude (start : ChatStart) (text : Str) : List (ChatEvent F) × List Message :=
  match chat.tables with
  | .error message => ([.error message], [])
  | .ok tables =>
    match tables.addMessage start.conversation.id "assistant" text start.userMessage.modelConfigId chat.elapsed with
    | none => ([.error chat.foreignKeyText], [])
    | some (_, message) =>
      ((chunkText chat.chunkSize text).map .content ++
        [.complete start.conversation.id message.id start.userMessage.modelConfigId], [message])

/-- What follows the rounds: an exception is shown (:705). -/
def ending (start : ChatStart) : Except Str (Option Str) → List (ChatEvent F) × List Message
  | .error message => ([.error message], [])
  | .ok found => chat.conclude start (finalAnswer found)

/-- A chat: its events, the provider's answers, the `final_answer` the loop leaves, and the messages it stores. -/
structure Trace (F : Type) where
  events : List (ChatEvent F)
  outputs : List (Except Str Str)
  found : Option Str
  stored : List Message

/-- `generate` (:575) -/
def generate [Python F] (start : ChatStart) : Trace F :=
  let planning := chat.rounds chat.maxRounds 0 start.workingMessages
  let (ending, stored) := chat.ending start planning.answer
  { events := .conversation start.conversation.id start.userMessage.id start.userMessage.modelConfigId ::
      (planning.events ++ ending ++ [.done start.conversation.id])
    outputs := planning.outputs
    found := planning.answer.toOption.join
    stored := stored }

end ChatRun

/-! ## The language of the events -/

/-- `(tool_start tool_end)*`, each pair of one tool. -/
inductive ToolPairs : List (ChatEvent F) → Prop
  | nil : ToolPairs []
  | cons {toolName : Str} {key key' : Option Str} {arguments arguments' : Value F} {statusCode : Nat}
      {resultSummary error : Option Str} {rest : List (ChatEvent F)} : ToolPairs rest →
      ToolPairs (.toolStart toolName key arguments ::
        .toolEnd toolName key' arguments' statusCode resultSummary error :: rest)

theorem ToolPairs.append {a b : List (ChatEvent F)} (ha : ToolPairs a) (hb : ToolPairs b) : ToolPairs (a ++ b) := by
  induction ha with
  | nil => exact hb
  | cons _ ih => exact .cons ih

theorem ToolPairs.no_error {events : List (ChatEvent F)} (h : ToolPairs events) (message : Str) :
    .error message ∉ events := by
  induction h with
  | nil => exact List.not_mem_nil
  | cons _ ih => simp [ih]

theorem chunkText_flatten {size : Nat} (hsize : 0 < size) (text : Str) : (chunkText size text).flatten = text := by
  have hcover : text.length ≤ size * ((text.length + size - 1) / size) := by
    have := Nat.lt_mul_div_succ (text.length + size - 1) hsize
    rw [Nat.mul_succ] at this
    omega
  rw [chunkText, List.flatten_slices, List.take_of_length_le hcover]

namespace ChatRun

variable (chat : ChatRun F)

variable [Python F]

/-- In round `n` the execution that `event` starts raised what the round does not catch, of this text. -/
def Escapes (n : Nat) (event : ChatEvent F) (message : Str) : Prop := ∃ toolName arguments err,
  event = toolStart toolName arguments ∧ chat.execute n toolName arguments = .error err ∧ isCaught err = false ∧
    message = chat.toolErrorText err

/-- The events of round `n`, by what it leads to. -/
inductive RoundEvents (n : Nat) : List (ChatEvent F) → RoundOutcome → Prop
  | again {events message} : ToolPairs events → RoundEvents n events (.again message)
  | answer {text} : RoundEvents n [] (.answer text)
  | raised {message} : RoundEvents n [] (.raised message)
  | escaped {event message} : chat.Escapes n event message → RoundEvents n [event] (.raised message)

theorem runTool_events (n : Nat) (toolName : Str) (arguments : Arguments F) :
    RoundEvents chat n (chat.runTool n toolName arguments).1 (chat.runTool n toolName arguments).2 := by
  rw [runTool]
  cases hexecute : chat.execute n toolName arguments with
  | ok result => exact .again (.cons .nil)
  | error err =>
    dsimp only
    split
    next => exact .again (.cons .nil)
    next hcaught => exact .escaped ⟨toolName, arguments, err, rfl, hexecute, by simpa using hcaught, rfl⟩

theorem callTool_events (n : Nat) (tool arguments : Value F) :
    RoundEvents chat n (chat.callTool n tool arguments).1 (chat.callTool n tool arguments).2 := by
  rw [callTool]
  split
  next => exact .again .nil
  next => exact .raised
  next =>
    split
    next => exact chat.runTool_events n _ _
    next => exact .raised

theorem react_events (n : Nat) (output : Str) :
    RoundEvents chat n (chat.react n output).1 (chat.react n output).2 := by
  rw [react]
  split
  next => exact .raised
  next => exact .again .nil
  next => exact chat.callTool_events n _ _
  next => exact .answer

theorem round_events (n : Nat) (working : List (Str × Str)) :
    RoundEvents chat n (chat.round n working).2.1 (chat.round n working).2.2 := by
  rw [round]
  split
  next => exact .raised
  next => exact chat.react_events n _

/-- The events of the rounds up to `last`: pairs, and behind them the start of a call that raised. -/
inductive RoundsEvents (last : Nat) : List (ChatEvent F) → Except Str (Option Str) → Prop
  | pairs {events answer} : ToolPairs events → RoundsEvents last events answer
  | escaped {events event message} : ToolPairs events → chat.Escapes last event message →
    RoundsEvents last (events ++ [event]) (.error message)

variable {chat} in
theorem RoundsEvents.prepend {last : Nat} {a b : List (ChatEvent F)}
    {answer : Except Str (Option Str)} (ha : ToolPairs a)
    (hb : RoundsEvents chat last b answer) : RoundsEvents chat last (a ++ b) answer := by
  cases hb with
  | pairs hpairs => exact .pairs (ha.append hpairs)
  | escaped hpairs hescapes =>
    rw [← List.append_assoc]
    exact .escaped (ha.append hpairs) hescapes

theorem rounds_events : ∀ (left n : Nat) (working : List (Str × Str)),
    RoundsEvents chat (n + (chat.rounds left n working).outputs.length - 1) (chat.rounds left n working).events
      (chat.rounds left n working).answer
  | 0, _, _ => .pairs .nil
  | left + 1, n, working => by
    have hround := chat.round_events n working
    rw [rounds]
    generalize chat.round n working = turn at hround ⊢
    obtain ⟨output, events, outcome⟩ := turn
    cases hround with
    | @again _ message hpairs =>
      dsimp only
      have hrest := rounds_events left (n + 1) (working ++ [("user".toList, message)])
      rw [List.length_cons, ← Nat.add_assoc, Nat.add_right_comm]
      exact .prepend hpairs hrest
    | answer => exact .pairs .nil
    | raised => exact .pairs .nil
    | escaped hescapes => exact .escaped .nil hescapes

theorem rounds_outputs : ∀ (left n : Nat) (working : List (Str × Str)),
    (chat.rounds left n working).outputs.length ≤ left
  | 0, _, _ => le_rfl
  | left + 1, n, working => by
    rw [rounds]
    obtain ⟨output, events, outcome⟩ := chat.round n working
    cases outcome with
    | again message => exact Nat.succ_le_succ (rounds_outputs left (n + 1) _)
    | answer => exact Nat.succ_le_succ (Nat.zero_le _)
    | raised => exact Nat.succ_le_succ (Nat.zero_le _)

omit [Python F] in
theorem chunkSize_pos : 0 < chat.chunkSize := runtimeSetting_pos chat.streamChunkSize (by decide)

/-- How a chat ends before `done`, after the round `last`, with the messages it stored. -/
inductive Ending (start : ChatStart) (last : Nat) : List Message → List (ChatEvent F) → Prop
  | complete {deltas : List Str} {message : Message} : message.role = "assistant".toList →
      message.conversationId = start.conversation.id →
    deltas.flatten = message.content → Ending start last [message] (deltas.map .content ++
      [.complete start.conversation.id message.id start.userMessage.modelConfigId])
  | error {message : Str} : Ending start last [] [.error message]
  | escaped {event message} : chat.Escapes last event message → Ending start last [] [event, .error message]

theorem conclude_ending (start : ChatStart) (last : Nat) (text : Str) :
    Ending chat start last (chat.conclude start text).2 (chat.conclude start text).1 := by
  rw [conclude]
  cases htables : chat.tables with
  | error message => exact .error
  | ok tables =>
    dsimp only
    split
    next => exact .error
    next s' message hadd =>
      obtain ⟨hrole, hcontent, hconversation⟩ := AIConversationStore.addMessage_row hadd
      refine .complete hrole hconversation ?_
      rw [hcontent, chunkText_flatten chat.chunkSize_pos]

/-- **The language of a chat.** -/
theorem generate_grammar (start : ChatStart) :
    (chat.generate start).outputs.length ≤ chat.maxRounds ∧ ∃ pairs ending, ToolPairs pairs ∧
      Ending chat start ((chat.generate start).outputs.length - 1) (chat.generate start).stored ending ∧
        (chat.generate start).events =
        .conversation start.conversation.id start.userMessage.id start.userMessage.modelConfigId ::
          (pairs ++ ending ++ [.done start.conversation.id]) := by
  have hevents := chat.rounds_events chat.maxRounds 0 start.workingMessages
  refine ⟨chat.rounds_outputs chat.maxRounds 0 start.workingMessages, ?_⟩
  rw [generate]
  generalize chat.rounds chat.maxRounds 0 start.workingMessages = planning at hevents ⊢
  obtain ⟨outputs, events, answer⟩ := planning
  cases hevents with
  | pairs hpairs =>
    cases answer with
    | error message => exact ⟨events, _, hpairs, .error, rfl⟩
    | ok found => exact ⟨events, _, hpairs, chat.conclude_ending start _ (finalAnswer found), rfl⟩
  | @escaped events event message hpairs hescapes =>
    refine ⟨events, [event, .error message], hpairs, .escaped (by simpa using hescapes), ?_⟩
    simp [ending]

theorem callTool_ne_answer (n : Nat) (tool arguments : Value F) (text : Str) :
    (chat.callTool n tool arguments).2 ≠ .answer text := by
  have hrun : ∀ (toolName : Str) (arguments : Arguments F), (chat.runTool n toolName arguments).2 ≠ .answer text := by
    intro toolName arguments
    rw [runTool]
    cases chat.execute n toolName arguments with
    | ok result => exact fun h => by cases h
    | error err =>
      dsimp only
      split <;> exact fun h => by cases h
  rw [callTool]
  split
  next => exact fun h => by cases h
  next => exact fun h => by cases h
  next =>
    split
    next => exact hrun _ _
    next => exact fun h => by cases h

theorem react_answer {n : Nat} {output text : Str} (h : (chat.react n output).2 = .answer text) :
    answer F chat.recursionLimit output = some text := by
  rw [react] at h
  rw [answer]
  split at h
  next => cases h
  next => cases h
  next => exact absurd h (chat.callTool_ne_answer n _ _ text)
  next hfinal =>
    cases h
    rw [hfinal]

theorem round_answer {n : Nat} {working : List (Str × Str)} {text : Str}
    (h : (chat.round n working).2.2 = .answer text) :
    ∃ output, (chat.round n working).1 = .ok output ∧ answer F chat.recursionLimit output = some text := by
  rw [round] at h ⊢
  split at h
  next => cases h
  next output _ => exact ⟨output, rfl, chat.react_answer h⟩

/-- The loop leaves the answer its last output leads to. -/
theorem rounds_answer : ∀ {left n : Nat} {working : List (Str × Str)} {text : Str},
    (chat.rounds left n working).answer = .ok (some text) → ∃ output,
      (chat.rounds left n working).outputs.getLast? = some (.ok output) ∧
        answer F chat.recursionLimit output = some text
  | 0, _, _, _, h => by cases h
  | left + 1, n, working, text, h => by
    rw [rounds] at h ⊢
    have hturn : (chat.round n working).2.2 = .answer text → _ := chat.round_answer
    generalize chat.round n working = turn at h hturn ⊢
    obtain ⟨output, events, outcome⟩ := turn
    cases outcome with
    | again message =>
      obtain ⟨last, hlast, hanswer⟩ := rounds_answer h
      refine ⟨last, ?_, hanswer⟩
      dsimp only
      rw [List.getLast?_cons, hlast]
      rfl
    | answer found =>
      cases h
      obtain ⟨raw, hraw, hanswer⟩ := hturn rfl
      exact ⟨raw, by rw [show output = .ok raw from hraw]; rfl, hanswer⟩
    | raised message => cases h

/-- The language as one would have it: every call that starts also ends. -/
def Paired (events : List (ChatEvent F)) : Prop := ∃ start pairs ending stop, ToolPairs pairs ∧
  ((∃ (deltas : List Str) (conversationId messageId : Nat) (modelConfigId : Option Nat),
      ending = deltas.map .content ++ [.complete conversationId messageId modelConfigId]) ∨ ∃ message,
        ending = [.error message]) ∧
  events = start :: (pairs ++ ending ++ [.done stop])

end ChatRun

/-- A chat on a stored conversation, by its model and its tools. -/
def chatOn (limit : Nat) (outputs : Nat → Str)
    (execute : Nat → Str → Arguments F → Except ToolError (ToolResult F)) : ChatRun F where
  maxRoundsSetting := none
  streamChunkSize := none
  recursionLimit := limit
  systemMessages := []
  complete n _ := .ok (outputs n)
  execute := execute
  tables := .ok existing
  elapsed := 1
  errorText _ := "error"
  foreignKeyText := "foreign key"

def started : ChatStart := ⟨existing, ⟨1, "test", "alice", "Existing", some 1, none⟩,
  ⟨1, 1, "user", "m1", some 1, 1⟩, []⟩

def jobCall : Str := "\x7b\"type\":\"tool_call\",\"tool\":\"job\"\x7d"

/-- A tool that raises a `TypeError`. -/
def brokenTool : ChatRun ℚ := chatOn 100 (fun _ => jobCall) fun _ _ _ => .error (.other (.backend (.python .typeError)))

/-- It is started and never ends. -/
theorem started_tool_left_open : ¬ ∀ (chat : ChatRun ℚ) (start : ChatStart),
    ChatRun.Paired (chat.generate start).events := by
  intro h
  have hevents : (brokenTool.generate started).events =
      [.conversation 1 1 (some 1), .toolStart "job" none (.dict []), .error "error", .done 1] := by rfl
  obtain ⟨start, pairs, ending, stop, hpairs, hending, hsame⟩ := h brokenTool started
  rw [hevents] at hsame
  cases hpairs with
  | nil =>
    rcases hending with ⟨deltas, _, _, _, rfl⟩ | ⟨message, rfl⟩
    · cases deltas <;> cases hsame
    · cases hsame
  | cons => cases hsame

/-! ## What is shown -/

section Shown

variable [Python F]

namespace ChatRun

variable (chat : ChatRun F)

theorem react_of_answer {n : Nat} {output text : Str} (h : answer F chat.recursionLimit output = some text) :
    chat.react n output = ([], .answer text) := by
  rw [answer] at h
  rw [react]
  split at h
  next content hfinal =>
    cases h
    rw [hfinal]
  next => cases h

omit [Python F] in
theorem ending_content {start : ChatStart} {text : Str} {message : Message}
    (h : message ∈ (chat.ending start (.ok (some text))).2) : message.content = finalAnswer (some text) := by
  rw [ending, conclude] at h
  split at h
  next => cases h
  next =>
    split at h
    next => cases h
    next hadd =>
      rw [List.mem_singleton.1 h]
      exact (AIConversationStore.addMessage_row hadd).2.1

/-- What is stored of an answer the loop found. -/
theorem generate_found {start : ChatStart} {text : Str} (h : (chat.generate start).found = some text) :
    ∃ output, (chat.generate start).outputs.getLast? = some (.ok output) ∧
      answer F chat.recursionLimit output = some text ∧
      ∀ message ∈ (chat.generate start).stored, message.content = finalAnswer (some text) := by
  have hanswer : (chat.rounds chat.maxRounds 0 start.workingMessages).answer = .ok (some text) := by
    rw [generate] at h
    dsimp only at h
    revert h
    generalize (chat.rounds chat.maxRounds 0 start.workingMessages).answer = found
    intro h
    cases found with
    | error => cases h
    | ok found => exact congrArg Except.ok h
  obtain ⟨output, hlast, houtput⟩ := chat.rounds_answer hanswer
  refine ⟨output, hlast, houtput, fun message hmessage => ?_⟩
  rw [generate] at hmessage
  dsimp only at hmessage
  rw [hanswer] at hmessage
  exact chat.ending_content hmessage

/-- A model that keeps giving one answer is shown with it. -/
theorem generate_of_answer {output text : Str} (hprovider : ∀ n messages, chat.complete n messages = .ok output)
    (hanswer : answer F chat.recursionLimit output = some text) (hne : text ≠ []) {start : ChatStart}
      {tables : AIConversationStore}
    (htables : chat.tables = .ok tables) (hconversation : ∃ c ∈ tables.conversations, c.id = start.conversation.id) :
    (chat.generate start).outputs.getLast? = some (.ok output) ∧ (chat.generate start).found = some text ∧
      ∃ message ∈ (chat.generate start).stored, message.content = text := by
  obtain ⟨left, hleft⟩ : ∃ left, chat.maxRounds = left + 1 :=
    Nat.exists_eq_succ_of_ne_zero (runtimeSetting_pos chat.maxRoundsSetting (by decide)).ne'
  have hrounds : chat.rounds chat.maxRounds 0 start.workingMessages = ⟨[.ok output], [], .ok (some text)⟩ := by
    rw [hleft, rounds, round, hprovider]
    dsimp only
    rw [chat.react_of_answer hanswer]
  have hending : ∃ message, message ∈ (chat.ending start (.ok (some text))).2 ∧ message.content = text := by
    obtain ⟨s', m, hadd⟩ := AIConversationStore.addMessage_stores hconversation "assistant" text
      start.userMessage.modelConfigId chat.elapsed
    refine ⟨m, ?_, (AIConversationStore.addMessage_row hadd).2.1⟩
    rw [ending, conclude, htables, finalAnswer, if_neg hne]
    dsimp only
    rw [hadd]
    exact List.mem_singleton_self m
  rw [generate]
  dsimp only
  rw [hrounds]
  exact ⟨rfl, rfl, hending⟩

end ChatRun

/-- **Objects are shown by the content of a final one exactly when it is alone.** -/
theorem envelopes_hidden_iff {limit : Nat} {output : Str} {objects : List (Arguments F)}
    (h : Envelopes limit (strip output) objects) :
    (∀ (chat : ChatRun F) (start : ChatStart), chat.recursionLimit = limit →
      (chat.generate start).outputs.getLast? = some (.ok output) → (chat.generate start).found.isSome = true →
        ∀ message ∈ (chat.generate start).stored, Shown limit objects message.content) ↔
          Sole F limit (strip output) := by
  have htext : ∀ {text : Str}, answer F limit output = some text → text ≠ [] := fun {text} hanswer => by
    rw [answer] at hanswer
    split at hanswer
    next =>
      cases hanswer
      exact answerText_ne_nil h.ne_nil
    next => cases hanswer
  rw [← answer_hidden_iff h]
  constructor
  · intro hchats text hanswer
    -- a model that says nothing else
    let chat : ChatRun F := chatOn limit (fun _ => output) fun _ _ _ => .error (.execution [] none none)
    have hconversation : ∃ c ∈ existing.conversations, c.id = started.conversation.id :=
      ⟨started.conversation, List.mem_cons_self, rfl⟩
    obtain ⟨hlast, hfound, message, hmessage, hcontent⟩ :=
      chat.generate_of_answer (fun _ _ => rfl) hanswer (htext hanswer) rfl hconversation
    rw [← hcontent]
    exact hchats chat started rfl hlast (by rw [hfound]; rfl) message hmessage
  · rintro hanswers chat start rfl hlast hfound message hmessage
    obtain ⟨text, hfound⟩ := Option.isSome_iff_exists.1 hfound
    obtain ⟨last, hlast', hanswer, hcontent⟩ := chat.generate_found hfound
    rw [hlast] at hlast'
    cases hlast'
    rw [hcontent message hmessage, finalAnswer, if_neg (htext hanswer)]
    exact hanswers text hanswer

end Shown

def jobCallItems : Arguments ℚ := [("type", .str "tool_call"), ("tool", .str "job")]

theorem jobCall_object : IsObject 100 jobCall jobCallItems := ⟨rfl, by decide, rfl, .inl rfl⟩

/-- Two tool calls, one to a line. -/
def twoCalls : Str := jobCall ++ ("\n".toList ++ jobCall)

theorem twoCalls_envelopes : Envelopes 100 (strip twoCalls) [jobCallItems, jobCallItems] := by
  rw [show strip twoCalls = twoCalls by decide]
  have hgap : Blank "\n" := ⟨by decide, fun c hc => by rw [List.mem_singleton.1 hc]; rfl⟩
  exact .inl (.more (.bare jobCall_object) hgap (.one (.bare jobCall_object)))

theorem envelopes_hidden_iff_twoCalls : (∀ (chat : ChatRun ℚ) (start : ChatStart), chat.recursionLimit = 100 →
    (chat.generate start).outputs.getLast? = some (.ok twoCalls) → (chat.generate start).found.isSome = true →
      ∀ message ∈ (chat.generate start).stored, Shown 100 [jobCallItems, jobCallItems] message.content) ↔
    Sole ℚ 100 (strip twoCalls) := envelopes_hidden_iff twoCalls_envelopes

/-- Two tool calls are shown to the user. -/
theorem two_calls_shown : ¬ ∀ (limit : Nat) (output : Str) (objects : List (Arguments ℚ)),
    Envelopes limit (strip output) objects → ∀ (chat : ChatRun ℚ) (start : ChatStart), chat.recursionLimit = limit →
      (chat.generate start).outputs.getLast? = some (.ok output) → (chat.generate start).found.isSome = true →
        ∀ message ∈ (chat.generate start).stored, Shown limit objects message.content := by
  intro h
  let chat : ChatRun ℚ := chatOn 100 (fun _ => twoCalls) fun _ _ _ => .error (.execution [] none none)
  have hstored : (chat.generate started).stored = [⟨3, 1, "assistant", strip twoCalls, some 1, 3⟩] := by
    decide
  have hlast : (chat.generate started).outputs.getLast? = some (.ok twoCalls) := by decide
  have hfound : (chat.generate started).found.isSome = true := by decide
  have hshown := h 100 twoCalls _ twoCalls_envelopes chat started rfl hlast hfound ⟨3, 1, "assistant",
    strip twoCalls, some 1, 3⟩ (by rw [hstored]; exact List.mem_cons_self)
  exact hshown.2 _ twoCalls_envelopes

/-! ## Outputs that break a chat -/

section Breaking

variable [Python F]

def Unhashable : Value F → Prop
  | .list _ | .dict _ => True
  | _ => False

variable (F) in
/-- An output whose decoding raises more than a `JSONDecodeError`, whose `type` is a list or an object, or which
calls a tool with arguments that count as given and are no object. -/
def Breaking (limit : Nat) (output : Str) : Prop :=
  (∃ err, extractJsonObject (F := F) limit output = .error err) ∨
    ∃ parsed : Arguments F, extractJsonObject limit output = .ok (.dict parsed) ∧ (Unhashable (argument parsed "type") ∨
      argument parsed "type" = .str "tool_call" ∧ (argument parsed "tool").strippedText ≠ [] ∧
        (argument parsed "arguments").truthy = true ∧ ∀ items, argument parsed "arguments" ≠ .dict items)

variable (F) in
def IsFinal (limit : Nat) (output : Str) : Prop :=
  ∃ content, actionFromModelOutput (F := F) limit output = .ok (.final content)

theorem hash_of_unhashable {value : Value F} (h : Unhashable value) : value.hash = .error .typeError := by
  cases value <;> first | rfl | cases h

theorem hash_of_hashable {value : Value F} (h : ¬ Unhashable value) : ∃ atom, value.hash = .ok atom := by
  cases value with
  | list | dict => exact absurd trivial h
  | float x => cases hx : Python.integral x <;> simp [Value.hash, hx]
  | _ => exact ⟨_, rfl⟩

theorem looksLikeInternalToolEnvelope_ok {parsed : Arguments F} (h : ¬ Unhashable (argument parsed "type")) :
    ∃ internal, looksLikeInternalToolEnvelope (.dict parsed) = .ok internal := by
  obtain ⟨atom, hatom⟩ := hash_of_hashable h
  rw [looksLikeInternalToolEnvelope, hatom, Except.ok_bind]
  split <;> exact ⟨_, rfl⟩

/-- The kinds of objects. -/
theorem actionOfObject_cases (parsed : Arguments F) (output : Str) :
    (Unhashable (argument parsed "type") ∧ ∃ err, actionOfObject parsed output = .error err) ∨
    (¬ Unhashable (argument parsed "type") ∧ argument parsed "type" ≠ .str "tool_call" ∧
      (actionOfObject parsed output = .ok (.invalidInternal (strip output)) ∨
        ∃ content, actionOfObject parsed output = .ok (.final content))) ∨
    (argument parsed "type" = .str "tool_call" ∧ actionOfObject parsed output =
      .ok (.toolCall (argument parsed "tool") ((argument parsed "arguments").or (.dict [])))) := by
  by_cases hhash : Unhashable (argument parsed "type")
  · refine .inl ⟨hhash, .typeError, ?_⟩
    rw [actionOfObject, looksLikeInternalToolEnvelope, hash_of_unhashable hhash]
    rfl
  · by_cases htype : argument parsed "type" = .str "tool_call"
    · exact .inr (.inr ⟨htype, actionOfObject_toolCall htype output⟩)
    · refine .inr (.inl ⟨hhash, htype, ?_⟩)
      obtain ⟨internal, hinternal⟩ := looksLikeInternalToolEnvelope_ok hhash
      have hnot : ¬ (argument parsed "type").isStr "tool_call" = true := fun h => htype (isStr_iff.1 h)
      rw [actionOfObject, hinternal, Except.ok_bind]
      cases internal with
      | true => exact .inl rfl
      | false =>
        right
        rw [if_neg Bool.false_ne_true, if_neg hnot]
        cases argument parsed "content" <;> exact ⟨_, rfl⟩

/-- Arguments the code takes for an object: one, or nothing given. -/
theorem or_dict {arguments : Value F} (h : arguments.truthy = false ∨ ∃ items, arguments = .dict items) :
    ∃ items, arguments.or (.dict []) = .dict items := by
  rcases h with h | ⟨items, rfl⟩
  · exact ⟨[], by rw [Value.or, h]; rfl⟩
  · cases items with
    | nil => exact ⟨[], rfl⟩
    | cons item items => exact ⟨item :: items, rfl⟩

theorem or_or (value : Value F) : (value.or (.dict [])).or (.dict []) = value.or (.dict []) := by
  cases h : value.truthy with
  | true => rw [show value.or (.dict []) = value by rw [Value.or, h]; rfl, Value.or, h]; rfl
  | false => rw [show value.or (.dict []) = .dict [] by rw [Value.or, h]; rfl]; rfl

namespace ChatRun

variable (chat : ChatRun F)

/-- What an output leads to in a round whose executions raise only what is caught. -/
inductive Reacts (output : Str) : RoundOutcome → Prop
  | raised {message : Str} : Breaking F chat.recursionLimit output → Reacts output (.raised message)
  | answer {text : Str} : IsFinal F chat.recursionLimit output → ¬ Breaking F chat.recursionLimit output →
    Reacts output (.answer text)
  | again {message : Str} : ¬ IsFinal F chat.recursionLimit output → ¬ Breaking F chat.recursionLimit output →
    Reacts output (.again message)

/-- Every exception of the tool calls of an output is caught. -/
def Catches (n : Nat) (output : Str) : Prop := ∀ tool arguments err,
  actionFromModelOutput chat.recursionLimit output = .ok (.toolCall tool (.dict arguments)) →
    chat.execute n tool.strippedText arguments = .error err → isCaught err = true

theorem callTool_again (n : Nat) (tool : Value F) {arguments : Arguments F}
    (hcaught : ∀ err, chat.execute n tool.strippedText arguments = .error err → isCaught err = true) :
    ∃ message, (chat.callTool n tool (.dict arguments)).2 = .again message := by
  have hor : (Value.dict arguments).or (.dict []) = .dict arguments := by cases arguments <;> rfl
  have hrun : ∃ message, (chat.runTool n tool.strippedText arguments).2 = .again message := by
    rw [runTool]
    cases hexecute : chat.execute n tool.strippedText arguments with
    | ok result => exact ⟨_, rfl⟩
    | error err =>
      dsimp only
      rw [if_pos (hcaught err hexecute)]
      exact ⟨_, rfl⟩
  rw [callTool, validateToolAction, hor]
  dsimp only
  split_ifs
  · exact ⟨_, rfl⟩
  · exact ⟨_, rfl⟩
  · exact hrun
  · exact hrun

theorem callTool_raised (n : Nat) {tool : Value F} (arguments : Value F) (htool : tool.strippedText ≠ [])
    (harguments : ∀ items, arguments.or (.dict []) ≠ .dict items) :
      ∃ message, (chat.callTool n tool arguments).2 = .raised message := by
  rw [callTool, validateToolAction, if_neg htool]
  cases hor : arguments.or (.dict []) with
  | dict items => exact absurd hor (harguments items)
  | _ =>
    dsimp only
    split_ifs <;> exact ⟨_, rfl⟩

theorem callTool_blank (n : Nat) {tool : Value F} (arguments : Value F) (htool : tool.strippedText = []) :
    ∃ message, (chat.callTool n tool arguments).2 = .again message := by
  rw [callTool, validateToolAction, if_pos htool]
  exact ⟨_, rfl⟩

omit chat in
theorem breaking_iff {limit : Nat} {output : Str} {parsed : Arguments F}
    (h : extractJsonObject limit output = .ok (.dict parsed)) :
    Breaking F limit output ↔ Unhashable (argument parsed "type") ∨ argument parsed "type" = .str "tool_call" ∧
      (argument parsed "tool").strippedText ≠ [] ∧ (argument parsed "arguments").truthy = true ∧
        ∀ items, argument parsed "arguments" ≠ .dict items := by
  constructor
  · rintro (⟨err, herr⟩ | ⟨parsed', hparsed, hbreaking⟩)
    · rw [h] at herr
      cases herr
    · rw [h] at hparsed
      cases hparsed
      exact hbreaking
  · exact fun hbreaking => .inr ⟨parsed, h, hbreaking⟩

theorem react_toolCall {n : Nat} {output : Str} (hcatches : chat.Catches n output) {parsed : Arguments F}
    (hextract : extractJsonObject chat.recursionLimit output = .ok (.dict parsed))
      (htype : argument parsed "type" = .str "tool_call")
    (haction : actionFromModelOutput chat.recursionLimit output =
      .ok (.toolCall (argument parsed "tool") ((argument parsed "arguments").or (.dict [])))) :
    chat.Reacts output (chat.react n output).2 := by
  have hnotFinal : ¬ IsFinal F chat.recursionLimit output := fun ⟨content, hcontent⟩ => by
    rw [haction] at hcontent
    cases hcontent
  have hhashable : ¬ Unhashable (argument parsed "type") := by
    rw [htype]
    exact id
  have hbreaking := breaking_iff hextract
  rw [react, haction]
  dsimp only
  by_cases htool : (argument parsed "tool").strippedText = []
  · obtain ⟨message, hmessage⟩ := chat.callTool_blank n ((argument parsed "arguments").or (.dict [])) htool
    rw [hmessage]
    exact .again hnotFinal fun h => (hbreaking.1 h).elim hhashable fun h => h.2.1 htool
  · by_cases hgiven : (argument parsed "arguments").truthy = false ∨ ∃ items, argument parsed "arguments" = .dict items
    · obtain ⟨items, hitems⟩ := or_dict hgiven
      rw [hitems] at haction ⊢
      obtain ⟨message, hmessage⟩ := chat.callTool_again n (argument parsed "tool") fun err =>
        hcatches _ items err haction
      rw [hmessage]
      refine .again hnotFinal fun h => (hbreaking.1 h).elim hhashable ?_
      rintro ⟨-, -, htruthy, hdict⟩
      rcases hgiven with hfalsy | ⟨items', hitems'⟩
      · rw [htruthy] at hfalsy
        cases hfalsy
      · exact hdict items' hitems'
    · rw [not_or, Bool.not_eq_false, not_exists] at hgiven
      have hsame : (argument parsed "arguments").or (.dict []) = argument parsed "arguments" := by
        rw [Value.or, hgiven.1]
        rfl
      obtain ⟨message, hmessage⟩ := chat.callTool_raised n ((argument parsed "arguments").or (.dict [])) htool
        fun items => by
          rw [or_or, hsame]
          exact hgiven.2 items
      rw [hmessage]
      exact .raised (hbreaking.2 (.inr ⟨htype, htool, hgiven⟩))

/-- What an output leads to, by its form. -/
theorem react_reacts {n : Nat} {output : Str} (hcatches : chat.Catches n output) :
    chat.Reacts output (chat.react n output).2 := by
  cases hextract : extractJsonObject (F := F) chat.recursionLimit output with
  | error err =>
    have haction : actionFromModelOutput (F := F) chat.recursionLimit output = .error err := by
      rw [actionFromModelOutput, hextract]
      rfl
    rw [react, haction]
    exact .raised (.inl ⟨err, hextract⟩)
  | ok value =>
    by_cases hdict : ∃ parsed, value = .dict parsed
    · obtain ⟨parsed, rfl⟩ := hdict
      have haction := action_of_object hextract
      have hbreaking := breaking_iff hextract
      rcases actionOfObject_cases parsed output with ⟨hunhashable, err, herr⟩ | ⟨hhashable, htype,
          hkind⟩ | ⟨htype, hcall⟩
      · rw [react, haction, herr]
        exact .raised (hbreaking.2 (.inl hunhashable))
      · have hsafe : ¬ Breaking F chat.recursionLimit output := fun h =>
          (hbreaking.1 h).elim hhashable fun h => htype h.1
        rcases hkind with hinternal | ⟨content, hfinal⟩
        · rw [react, haction, hinternal]
          refine .again ?_ hsafe
          rintro ⟨content, hcontent⟩
          rw [haction, hinternal] at hcontent
          cases hcontent
        · rw [react, haction, hfinal]
          exact .answer ⟨content, haction.trans hfinal⟩ hsafe
      · exact chat.react_toolCall hcatches hextract htype (haction.trans hcall)
    · have haction := action_of_other hextract fun parsed h => hdict ⟨parsed, h⟩
      rw [react, haction]
      refine .answer ⟨_, haction⟩ ?_
      rintro (⟨err, herr⟩ | ⟨parsed, hparsed, -⟩)
      · rw [hextract] at herr
        cases herr
      · rw [hextract] at hparsed
        cases hparsed
        exact hdict ⟨parsed, rfl⟩

/-- The rounds fail at the first output that breaks, unless a final one comes before. -/
theorem rounds_raised_iff {outputs : Nat → Str} (hprovider : ∀ n messages, chat.complete n messages = .ok (outputs n))
    (hcatches : ∀ n, chat.Catches n (outputs n)) : ∀ (left n : Nat) (working : List (Str × Str)),
    (∃ message, (chat.rounds left n working).answer = .error message) ↔ ∃ k < left,
      (∀ j < k, ¬ IsFinal F chat.recursionLimit (outputs (n + j))) ∧ Breaking F chat.recursionLimit (outputs (n + k))
  | 0, _, _ => iff_of_false (fun ⟨_, h⟩ => by cases h) fun ⟨_, h, _⟩ => absurd h (Nat.not_lt_zero _)
  | left + 1, n, working => by
    have hreacts := chat.react_reacts (hcatches n)
    rw [rounds, round, hprovider]
    dsimp only
    generalize chat.react n (outputs n) = turn at hreacts ⊢
    obtain ⟨events, outcome⟩ := turn
    cases hreacts with
    | raised hbreaking =>
      exact iff_of_true ⟨_, rfl⟩ ⟨0, Nat.succ_pos left, fun j hj => absurd hj (Nat.not_lt_zero j), hbreaking⟩
    | answer hfinal hsafe =>
      refine iff_of_false (fun ⟨_, h⟩ => by cases h) ?_
      rintro ⟨k, -, hearlier, hbreaking⟩
      cases k with
      | zero => exact hsafe hbreaking
      | succ k => exact hearlier 0 (Nat.succ_pos k) hfinal
    | again hnotFinal hsafe =>
      refine (rounds_raised_iff hprovider hcatches left (n + 1) _).trans ⟨?_, ?_⟩
      · rintro ⟨k, hk, hearlier, hbreaking⟩
        refine ⟨k + 1, Nat.succ_lt_succ hk, fun j hj => ?_, by rwa [Nat.add_right_comm] at hbreaking⟩
        cases j with
        | zero => exact hnotFinal
        | succ j =>
          have hj := hearlier j (Nat.lt_of_succ_lt_succ hj)
          rwa [Nat.add_right_comm] at hj
      · rintro ⟨k, hk, hearlier, hbreaking⟩
        cases k with
        | zero => exact absurd hbreaking hsafe
        | succ k =>
          refine ⟨k, Nat.lt_of_succ_lt_succ hk, fun j hj => ?_, by rwa [Nat.add_right_comm]⟩
          have hj := hearlier (j + 1) (Nat.succ_lt_succ hj)
          rwa [Nat.add_right_comm]

/-- A chat that ends with an answer. -/
def Answers (events : List (ChatEvent F)) : Prop := (∀ message, .error message ∉ events) ∧
  ∃ front conversationId messageId modelConfigId stop,
    events = front ++ [.complete conversationId messageId modelConfigId, .done stop]

/-- With its conversation stored, a chat ends with an answer unless the rounds fail. -/
theorem generate_answers_iff (start : ChatStart)
    (htables : ∃ tables, chat.tables = .ok tables ∧ ∃ c ∈ tables.conversations, c.id = start.conversation.id) :
    Answers (chat.generate start).events ↔
      ¬ ∃ message, (chat.rounds chat.maxRounds 0 start.workingMessages).answer = .error message := by
  have hevents := chat.rounds_events chat.maxRounds 0 start.workingMessages
  rw [generate]
  generalize chat.rounds chat.maxRounds 0 start.workingMessages = planning at hevents ⊢
  obtain ⟨outputs, events, answer⟩ := planning
  cases answer with
  | error message =>
    refine iff_of_false (fun h => h.1 message ?_) fun h => h ⟨message, rfl⟩
    simp [ending]
  | ok found =>
    refine iff_of_true ?_ fun ⟨_, h⟩ => by cases h
    obtain ⟨tables, htables, hconversation⟩ := htables
    obtain ⟨s', m, hadd⟩ := AIConversationStore.addMessage_stores hconversation "assistant" (finalAnswer found)
      start.userMessage.modelConfigId chat.elapsed
    have hconclude : chat.ending start (.ok found) = ((chunkText chat.chunkSize (finalAnswer found)).map .content ++
        [.complete start.conversation.id m.id start.userMessage.modelConfigId], [m]) := by
      rw [ending, conclude, htables]
      dsimp only
      rw [hadd]
    cases hevents with
    | pairs hpairs =>
      dsimp only
      rw [hconclude]
      refine ⟨fun message hmem => ?_, .conversation start.conversation.id start.userMessage.id
        start.userMessage.modelConfigId ::
        (events ++ (chunkText chat.chunkSize (finalAnswer found)).map .content), start.conversation.id, m.id,
        start.userMessage.modelConfigId, start.conversation.id, ?_⟩
      · simp [hpairs.no_error message] at hmem
      · simp

end ChatRun

/-! ## Executions -/

theorem resolveToolCall_error {toolName : Str} {arguments : Arguments F} {err : ToolError}
    (h : resolveToolCall toolName arguments = .error err) : ∃ message, err = .execution message none none := by
  have hgeneric : ∀ {permission reason : Str} {refused : Bool},
      resolveGeneric permission refused reason arguments = .error err →
      ∃ message, err = .execution message none none := by
    intro permission reason refused h
    unfold resolveGeneric at h
    dsimp only at h
    split at h
    next =>
      split at h
      next =>
        cases h
        exact ⟨_, rfl⟩
      next => cases h
    next => cases h
  unfold resolveToolCall at h
  dsimp only at h
  split at h
  next => exact hgeneric h
  next =>
    split at h
    next => exact hgeneric h
    next =>
      split at h
      next =>
        cases h
        exact ⟨_, rfl⟩
      next => cases h

/-- The interfaces raise `AIAgentInterfaceError`s only on the call. -/
def Behaves (ctx : ToolContext F) (toolName : Str) (arguments : Arguments F) : Prop := ∀ call err,
  resolveToolCall toolName arguments = .ok call →
    (Assistant.execute ctx.app ctx.user call.interfaceKey call.input []).1 = .error err →
      ∃ status message, err = .interface status message

/-- What such an execution raises, the chat catches. -/
theorem executeTool_caught {ctx : ToolContext F} {toolName : Str} {arguments : Arguments F}
    (h : Behaves ctx toolName arguments)
    {log : List (ToolEvent F)} {err : ToolError} (herr : (executeTool ctx toolName arguments log).1 = .error err) :
    isCaught err = true := by
  unfold executeTool at herr
  cases hcall : resolveToolCall toolName arguments with
  | error e =>
    rw [hcall] at herr
    obtain ⟨message, rfl⟩ := resolveToolCall_error hcall
    cases herr
    rfl
  | ok call =>
    rw [hcall] at herr
    dsimp only at herr
    split at herr
    next =>
      cases herr
      rfl
    next =>
      have houtcome : (runInterface ctx call.interfaceKey call.input).1 =
        (Assistant.execute ctx.app ctx.user call.interfaceKey call.input []).1 := rfl
      cases hrun : (runInterface ctx call.interfaceKey call.input).1 with
      | ok result =>
        rw [hrun] at herr
        cases herr
      | error e =>
        obtain ⟨status, message, rfl⟩ := h call e hcall (houtcome.symm.trans hrun)
        rw [hrun] at herr
        cases herr
        split <;> rfl

/-- **Which outputs break a chat.** -/
theorem answers_iff (chat : ChatRun F) (start : ChatStart) (ctx : Nat → ToolContext F) (outputs : Nat → Str)
    (hprovider : ∀ n messages, chat.complete n messages = .ok (outputs n))
    (htables : ∃ tables, chat.tables = .ok tables ∧ ∃ c ∈ tables.conversations, c.id = start.conversation.id)
    (htools : ∀ n toolName arguments, chat.execute n toolName arguments = (executeTool (ctx n) toolName arguments []).1)
    (hhandlers : ∀ n tool arguments,
      actionFromModelOutput chat.recursionLimit (outputs n) = .ok (.toolCall tool (.dict arguments)) →
        Behaves (ctx n) tool.strippedText arguments) :
    ChatRun.Answers (chat.generate start).events ↔ ∀ n < chat.maxRounds,
      (∀ m < n, ¬ IsFinal F chat.recursionLimit (outputs m)) → ¬ Breaking F chat.recursionLimit (outputs n) := by
  have hcatches : ∀ n, chat.Catches n (outputs n) := fun n tool arguments err haction herr => by
    rw [htools] at herr
    exact executeTool_caught (hhandlers n tool arguments haction) herr
  rw [chat.generate_answers_iff start htables, chat.rounds_raised_iff hprovider hcatches]
  simp only [Nat.zero_add, not_exists, not_and]

end Breaking

def aliceContext : ToolContext ℚ := ⟨emptyCluster, .authenticated "alice" [], 1, 1, fun _ => "error"⟩

/-- A tool call, then a text. -/
def callThenText (n : Nat) : Str := if n = 0 then jobCall else "Job 7 is done."

theorem callThenText_call {n : Nat} {tool : Value ℚ} {arguments : Arguments ℚ}
    (h : actionFromModelOutput 100 (callThenText n) = .ok (.toolCall tool (.dict arguments))) :
    tool = .str "job" ∧ arguments = [] := by
  cases n with
  | zero =>
    rw [show actionFromModelOutput 100 (callThenText 0) =
      .ok (.toolCall (.str "job") (.dict []) : Action ℚ) from rfl] at h
    cases h
    exact ⟨rfl, rfl⟩
  | succ n =>
    rw [show actionFromModelOutput 100 (callThenText (n + 1)) = .ok (.final "Job 7 is done." : Action ℚ) from rfl] at h
    cases h

/-- A chat whose tools are the registry's. -/
def aliceChat (outputs : Nat → Str) : ChatRun ℚ :=
  chatOn 100 outputs fun _ toolName arguments => (executeTool aliceContext toolName arguments []).1

theorem answers_iff_callThenText : ChatRun.Answers ((aliceChat callThenText).generate started).events ↔
    ∀ n < 4, (∀ m < n, ¬ IsFinal ℚ 100 (callThenText m)) → ¬ Breaking ℚ 100 (callThenText n) := by
  refine answers_iff (aliceChat callThenText) started (fun _ => aliceContext) callThenText (fun _ _ => rfl)
    ⟨existing, rfl, started.conversation, List.mem_cons_self, rfl⟩ (fun _ _ _ => rfl)
    fun n tool arguments haction call err hcall herr => ?_
  obtain ⟨rfl, rfl⟩ := callThenText_call haction
  rw [show resolveToolCall (Value.str "job" : Value ℚ).strippedText ([] : Arguments ℚ) =
    .ok ⟨"dynamic-query", "job", .dict []⟩ from rfl] at hcall
  cases hcall
  have hrun : (Assistant.execute aliceContext.app aliceContext.user "job" ([] : Arguments ℚ) []).1 =
    .error (.interface 400 "job_id must be an integer") := rfl
  cases hrun.symm.trans herr
  exact ⟨_, _, rfl⟩

def listType : Str := "\x7b\"type\":[]\x7d"

/-- A `type` that is a list ends a chat without an answer. -/
theorem list_type_breaks : ¬ ∀ (chat : ChatRun ℚ) (start : ChatStart) (ctx : Nat → ToolContext ℚ) (outputs : Nat → Str),
    (∀ n messages, chat.complete n messages = .ok (outputs n)) →
    (∃ tables, chat.tables = .ok tables ∧ ∃ c ∈ tables.conversations, c.id = start.conversation.id) →
    (∀ n toolName arguments, chat.execute n toolName arguments = (executeTool (ctx n) toolName arguments []).1) →
    (∀ n tool arguments, actionFromModelOutput chat.recursionLimit (outputs n) =
      .ok (.toolCall tool (.dict arguments)) → Behaves (ctx n) tool.strippedText arguments) →
      ChatRun.Answers (chat.generate start).events := by
  intro h
  have hevents : ((aliceChat fun _ => listType).generate started).events =
    [.conversation 1 1 (some 1), .error "error", .done 1] := rfl
  have hanswers := h (aliceChat fun _ => listType) started (fun _ => aliceContext) (fun _ => listType) (fun _ _ => rfl)
    ⟨existing, rfl, started.conversation, List.mem_cons_self, rfl⟩ (fun _ _ _ => rfl) fun n tool arguments haction => ?_
  · refine hanswers.1 "error" ?_
    rw [hevents]
    simp
  · rw [show actionFromModelOutput _ _ = (.error .typeError : Except Py.Error (Action ℚ)) from rfl] at haction
    cases haction

end SlurmWeb.Chat
