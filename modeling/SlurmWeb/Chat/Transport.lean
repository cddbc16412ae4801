import SlurmWeb.Chat.StreamChat
import SlurmWeb.Lib.EventStream
import SlurmWeb.Lib.JsonLines
import SlurmWeb.Lib.PyText

/-!
# A chat on its way to the browser (slurmweb/ai/service.py, slurmweb/views/gateway.py)

The agent writes the events of a chat as a `text/event-stream`, the gateway passes its chunks on, and
appends an error when the connection to the agent breaks. That may be in the middle of an event.

| here | there |
| --- | --- |
| `sseEvent` | `sse_event` (service.py:540) |
| `payload` | its second argument in `generate` (service.py:566-710) |
| `brokenStream` | `proxy_stream_agent` (gateway.py:381) when a `RequestException` ends it |
| `onError` | `onmessage` (GatewayAPI.ts:2253), as far as it calls `handlers.onError` |

The browser's `fetchEventSource`, which is not part of the repository, reads the format of
`EventStream`. `JSON.parse` is a parameter.

* `stream_received` — the browser receives the events that were sent.
* `broken_stream_told_iff` — where a stream may break without the user being told.
-/

namespace SlurmWeb.Chat

open Strings Py Assistant

variable {F : Type}

/-! ## Sending -/

def ChatEvent.name : ChatEvent F → Str
  | .conversation .. => "conversation"
  | .toolStart .. => "tool_start"
  | .toolEnd .. => "tool_end"
  | .content .. => "content"
  | .complete .. => "complete"
  | .error .. => "error"
  | .done .. => "done"

def orNull (value : Option Nat) : Value F := value.elim .none fun n => .int n

def textOrNull (value : Option Str) : Value F := value.elim .none .str

/-- What an event carries; a tool that failed has no duration. -/
def ChatEvent.payload (durationMs : Nat) : ChatEvent F → Arguments F
  | .conversation conversationId messageId modelConfigId | .complete conversationId messageId modelConfigId =>
    [("conversation_id", .int conversationId), ("message_id", .int messageId),
      ("model_config_id", orNull modelConfigId)]
  | .toolStart toolName interfaceKey arguments =>
    [("tool_name", .str toolName), ("interface_key", textOrNull interfaceKey), ("arguments", arguments)]
  | .toolEnd toolName interfaceKey arguments statusCode resultSummary none =>
    [("tool_name", .str toolName), ("interface_key", textOrNull interfaceKey), ("arguments", arguments),
      ("duration_ms", .int durationMs), ("status_code", .int statusCode), ("result_summary", textOrNull resultSummary)]
  | .toolEnd toolName interfaceKey arguments statusCode resultSummary (some text) =>
    [("tool_name", .str toolName), ("interface_key", textOrNull interfaceKey), ("arguments", arguments),
      ("duration_ms", .none), ("status_code", .int statusCode), ("result_summary", textOrNull resultSummary),
      ("error", .str text)]
  | .content delta => [("delta", .str delta)]
  | .error message => [("message", .str message)]
  | .done conversationId => [("conversation_id", .int conversationId)]

section

variable [Python F]

/-- `sse_event` (service.py:540) -/
def sseEvent (event : Str) (payload : Arguments F) : Str :=
  "event: ".toList ++ event ++ "\ndata: ".toList ++ Python.dumps (.dict payload) ++ "\n\n".toList

/-- The text of events, each with the milliseconds its tool took. -/
def streamText (events : List (Nat × ChatEvent F)) : Str :=
  events.flatMap fun e => sseEvent e.2.name (e.2.payload e.1)

/-- `proxy_stream_agent` (gateway.py:381): what came through, and the exception. -/
def brokenStream (received reason : Str) : Str :=
  received ++ sseEvent "error" ([("message",
    .str ("Unable to connect to agent stream: ".toList ++ reason))] : Arguments F)

/-- What the browser is sent as an event. -/
def message (e : Nat × ChatEvent F) : EventStream.Message := ⟨e.2.name, Python.dumps (.dict (e.2.payload e.1))⟩

/-- The exception as an event. -/
def connectionError (reason : Str) : EventStream.Message :=
  ⟨"error", Python.dumps (.dict [("message", .str ("Unable to connect to agent stream: ".toList ++ reason))] : Value F)⟩

end

/-! ## Receiving -/

section

-- `JSON.parse` and `String`
variable (parse : Str → Option (Value F)) (string : Value F → Str)

/-- `data.message` -/
def messageOf : Value F → Value F
  | .dict items => argument items "message"
  | _ => .none

/-- The text `onmessage` (GatewayAPI.ts:2253) hands to `handlers.onError`, if it does. -/
def onError (event : EventStream.Message) : Option Str :=
  match if event.data = [] then some (.dict []) else parse event.data with
  | none => some ("Unable to parse AI stream event: ".toList ++ event.event)
  | some data =>
    if event.event = "error".toList then
      some (match messageOf data with
        | .none => "Unknown AI stream error"
        | message => string message)
    else none

end

/-- What the stream relies on of `JSON.parse`: outside of strings, where no line break stands, an `r` is
followed by the `u` of `true`, and two objects by a comma between them. -/
structure JsonParse [Python F] (parse : Str → Option (Value F)) : Prop where
  letter : ∀ a b, parse (a ++ (['r', '\n'] ++ b)) = none
  objects : ∀ a b, parse (a ++ (['}', '\n', '{'] ++ b)) = none
  text : ∀ s, parse (Python.dumps (.dict [("message", .str s)] : Value F)) = some (.dict [("message", .str s)])

/-- Where a stream breaks silently: within the line of an event's name, and within the word `data` unless
the event is an error itself. -/
def Lost (e : ChatEvent F) (rest : Str) : Prop :=
  (rest ≠ [] ∧ '\n' ∉ rest) ∨
    (e.name ≠ "error".toList ∧ ∃ p, p ≠ [] ∧ p <+: "data".toList ∧ rest = "event: ".toList ++ e.name ++ '\n' :: p)

/-! ## Events are lines -/

section

variable [Python F]

theorem streamText_eq (events : List (Nat × ChatEvent F)) :
    streamText events = EventStream.encode (events.map message) := by
  rw [EventStream.encode, List.flatMap_map]
  rfl

theorem brokenStream_eq (received reason : Str) : brokenStream (F := F) received reason =
    received ++ EventStream.encodeMessage (connectionError (F := F) reason) := rfl

omit [Python F] in
theorem name_inline (e : ChatEvent F) : EventStream.Inline e.name ∧ e.name ≠ [] := by
  have hplain : ∀ name : Str, ((name.all fun c => c != '\n' && c != '\r') && !name.isEmpty) = true →
      EventStream.Inline name ∧ name ≠ [] := by
    intro name h
    rw [Bool.and_eq_true] at h
    refine ⟨EventStream.inline_of_all h.1, ?_⟩
    rintro rfl
    exact absurd h.2 (by decide)
  cases e with
  | conversation => exact hplain "conversation" (by decide)
  | toolStart => exact hplain "tool_start" (by decide)
  | toolEnd => exact hplain "tool_end" (by decide)
  | content => exact hplain "content" (by decide)
  | complete => exact hplain "complete" (by decide)
  | error => exact hplain "error" (by decide)
  | done => exact hplain "done" (by decide)

/-- A text of `json.dumps` is one line in braces. -/
theorem dumps_dict [PythonText F] (hfloat : ∀ x : F, Json.Printable (Python.str (.float x))) (items : Arguments F) :
    EventStream.Inline (Python.dumps (.dict items)) ∧ ∃ body, Python.dumps (.dict items) = '{' :: (body ++ ['}']) := by
  rw [PythonText.dumps_eq]
  refine ⟨?_, _, rfl⟩
  intro c hc
  have hprintable := Json.dumps_printable hfloat (.dict items) c hc
  constructor
  · rintro rfl
    exact absurd hprintable.1 (by decide)
  · rintro rfl
    exact absurd hprintable.1 (by decide)

theorem message_plain [PythonText F] (hfloat : ∀ x : F, Json.Printable (Python.str (.float x)))
    (e : Nat × ChatEvent F) :
    (message e).Plain := ⟨(name_inline e.2).1, (name_inline e.2).2, (dumps_dict hfloat _).1⟩

theorem connectionError_plain [PythonText F] (hfloat : ∀ x : F, Json.Printable (Python.str (.float x))) (reason : Str) :
    (connectionError (F := F) reason).Plain :=
  ⟨EventStream.inline_of_all rfl, by simp [connectionError], (dumps_dict hfloat _).1⟩

/-- **The browser receives the events that were sent**, in their order, whatever they carry and however the
text is cut into chunks on the way. -/
theorem stream_received [PythonText F] (hfloat : ∀ x : F, Json.Printable (Python.str (.float x)))
    (events : List (Nat × ChatEvent F)) {chunks : List Str} (hchunks : chunks.flatten = streamText events) :
    EventStream.read chunks = events.map message := by
  rw [streamText_eq] at hchunks
  refine EventStream.read_encode (fun m hm => ?_) hchunks
  obtain ⟨e, -, rfl⟩ := List.mem_map.1 hm
  exact message_plain hfloat e

/-! ## A stream that breaks -/

omit [Python F] in
theorem onError_error {parse : Str → Option (Value F)} {string : Value F → Str} {event : EventStream.Message}
    (h : event.event = "error".toList) : (onError parse string event).isSome = true := by
  unfold onError
  split
  next => rfl
  next => rw [if_pos h]; rfl

omit [Python F] in
theorem onError_unparsed {parse : Str → Option (Value F)} {string : Value F → Str} {event : EventStream.Message}
    (hne : event.data ≠ []) (h : parse event.data = none) : (onError parse string event).isSome = true := by
  rw [onError, if_neg hne, h]
  rfl

omit [Python F] in
theorem onError_parsed {parse : Str → Option (Value F)} {string : Value F → Str}
    {event : EventStream.Message} {data : Value F}
    (hne : event.data ≠ []) (h : parse event.data = some data) (hevent : event.event ≠ "error".toList) :
    onError parse string event = none := by
  rw [onError, if_neg hne, h]
  exact if_neg hevent

theorem eventLine_message (e : Nat × ChatEvent F) : EventStream.eventLine (message e) = "event: ".toList ++ e.2.name :=
  congrArg ("event: ".toList ++ ·) rfl

/-- The name of an error is shorter than a line. -/
theorem error_short (q : Str) (m : EventStream.Message) : q ++ EventStream.eventLine m ≠ "error".toList := by
  have hline : "event: ".toList.length ≤ (q ++ EventStream.eventLine m).length := by
    unfold EventStream.eventLine
    rw [List.length_append, List.length_append]
    exact (Nat.le_add_right _ _).trans (Nat.le_add_left _ _)
  intro h
  rw [h] at hline
  exact absurd hline (by decide)

/-- A rest that has the whole line of the name is lost within the word `data` only. -/
theorem lost_behind_name {e : Nat × ChatEvent F} {t : Str} : Lost e.2 (EventStream.eventLine (message e) ++ '\n' :: t) ↔
    e.2.name ≠ "error".toList ∧ t ≠ [] ∧ t <+: "data".toList := by
  constructor
  · rintro (⟨-, hbreak⟩ | ⟨hname, p, hp, hprefix, heq⟩)
    · exact absurd (List.mem_append_right _ List.mem_cons_self) hbreak
    · rw [eventLine_message, List.append_cancel_left_eq, List.cons.injEq] at heq
      rw [heq.2]
      exact ⟨hname, hp, hprefix⟩
  · rintro ⟨hname, hne, hprefix⟩
    exact .inr ⟨hname, t, hne, hprefix, rfl⟩

/-- **Where a stream may break without the user being told.** The browser receives the events that came
through whole and one more message, and calls `onError` for that one unless the break is within the line of
a name or within the word `data`. -/
theorem broken_stream_told_iff [PythonText F] (hfloat : ∀ x : F, Json.Printable (Python.str (.float x)))
    {parse : Str → Option (Value F)} (hparse : JsonParse parse) (string : Value F → Str)
      (before : List (Nat × ChatEvent F))
    (e : Nat × ChatEvent F) {rest : Str} (hcut : rest <+: streamText [e]) (hne : rest ≠ streamText [e]) (reason : Str)
    {chunks : List Str} (hchunks : chunks.flatten = brokenStream (F := F) (streamText before ++ rest) reason) :
    ∃ last, EventStream.read chunks = before.map message ++ [last] ∧
      ((onError parse string last).isSome = true ↔ ¬ Lost e.2 rest) := by
  have hone : streamText [e] = EventStream.encodeMessage (message e) := by
    rw [streamText_eq]
    simp [EventStream.encode]
  rw [hone] at hcut hne
  rw [brokenStream_eq, streamText_eq, List.append_assoc] at hchunks
  have hplain : ∀ m ∈ before.map message, m.Plain := by
    intro m hm
    obtain ⟨e, -, rfl⟩ := List.mem_map.1 hm
    exact message_plain hfloat e
  obtain ⟨last, hlast, hread⟩ := EventStream.read_pasted hplain (message_plain hfloat e)
    (connectionError_plain hfloat reason) hcut hne hchunks
  refine ⟨last, hread, ?_⟩
  obtain ⟨-, body, hbody⟩ := dumps_dict hfloat
    [("message", .str ("Unable to connect to agent stream: ".toList ++ reason))]
  have hdata : (connectionError (F := F) reason).data = '{' :: (body ++ ['}']) := hbody
  cases hlast with
  | between =>
    refine iff_of_true (onError_error rfl) ?_
    rintro (⟨hne, -⟩ | ⟨-, p, -, -, heq⟩)
    · exact hne rfl
    · simp at heq
  | first hne hbreak hname =>
    refine iff_of_false ?_ (not_not.2 (.inl ⟨hne, hbreak⟩))
    rw [onError_parsed (by rw [hdata]; simp) (hparse.text _)]
    · simp
    · rcases hname with rfl | ⟨q, rfl⟩
      · have hdiff : "message".toList ≠ "error".toList := by decide
        exact hdiff
      · exact error_short q _
  | named => exact iff_of_true (onError_error rfl) fun h => (lost_behind_name.1 h).2.1 rfl
  | @keyword p hp hprefix =>
    rw [lost_behind_name]
    by_cases hname : e.2.name = "error".toList
    · exact iff_of_true (onError_error hname) fun h => h.1 hname
    · rw [onError_parsed (by rw [hdata]; simp) (hparse.text _) hname]
      exact iff_of_false (by simp) (not_not.2 ⟨hname, hp, hprefix⟩)
  | @data p q =>
    refine iff_of_true (onError_unparsed (by simp) ?_) fun h => ?_
    · have hline : EventStream.eventLine (connectionError (F := F) reason) = "event: erro".toList ++ ['r'] := by
        have hsplit : "event: ".toList ++ "error".toList = "event: erro".toList ++ ['r'] := by decide
        exact hsplit
      have hletter := hparse.letter (q ++ "event: erro".toList) (connectionError (F := F) reason).data
      rw [hline]
      simpa using hletter
    · have hcolon : ':' ∈ "data".toList := (lost_behind_name.1 h).2.2.subset (by simp)
      exact absurd hcolon (by decide)
  | second =>
    obtain ⟨-, own, hown⟩ := dumps_dict hfloat (e.2.payload e.1)
    refine iff_of_true (onError_unparsed (by simp) ?_) fun h => ?_
    · have hobjects := hparse.objects ('{' :: own) (body ++ ['}'])
      have hmessage : (message e).data = '{' :: (own ++ ['}']) := hown
      rw [hdata, hmessage]
      simpa using hobjects
    · have hbreak : '\n' ∈ "data".toList := (lost_behind_name.1 h).2.2.subset (by simp)
      exact absurd hbreak (by decide)

end

/-! ### A connection that breaks within a name -/

theorem decimal_printable (x : Decimal) : Json.Printable (Python.str (.float x : Value Decimal)) :=
  (Json.int_printable _).append (.cons (by decide) (Json.int_printable (Nat.cast _)))

/-- `JSON.parse` on texts of integers. -/
def parseDecimal (text : Str) : Option (Value Decimal) := (Json.loads 100 text).toOption

theorem parseDecimal_none {text : Str} (h : ∀ value : Value Decimal, Json.loads 100 text ≠ .ok value) :
    parseDecimal text = none := by
  unfold parseDecimal
  cases hloads : (Json.loads 100 text : Except Json.LoadsError (Value Decimal)) with
  | ok value => exact absurd hloads (h value)
  | error err => rfl

theorem parseDecimal_json : JsonParse parseDecimal where
  letter a b := parseDecimal_none (Json.loads_letter_break 100 a b)
  objects a b := parseDecimal_none (Json.loads_objects 100 a b)
  text s := by
    have hlegible : Json.Legible (fun x : Decimal => Python.str (.float x)) 100 (.dict [("message".toList, .str s)]) :=
      ⟨by decide, List.nodup_singleton _, trivial, trivial⟩
    unfold parseDecimal
    rw [PythonText.dumps_eq, Json.loads_dumps hlegible]
    rfl

def opened : Nat × ChatEvent Decimal := (0, .conversation 1 1 (some 1))

theorem stream_received_opened : EventStream.read [(streamText [opened]).take 10, (streamText [opened]).drop 10] =
    [opened].map message := by
  refine stream_received decimal_printable [opened] ?_
  simp

theorem broken_stream_told_iff_opened :
    ∃ last, EventStream.read [brokenStream (F := Decimal) (streamText [opened] ++ "event: con".toList) "reset"] =
        [opened].map message ++ [last] ∧
      ((onError parseDecimal (fun _ => []) last).isSome = true ↔
        ¬ Lost (.content "Two." : ChatEvent Decimal) "event: con".toList) := by
  refine broken_stream_told_iff decimal_printable parseDecimal_json (fun _ => []) [opened]
    (0, .content "Two.") ?_ ?_ "reset" ?_
  · decide
  · decide
  · simp

end SlurmWeb.Chat
