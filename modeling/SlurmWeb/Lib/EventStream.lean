import SlurmWeb.Lib.Strings

/-!
# Event streams

The `text/event-stream` format: lines of fields, and a blank line behind each message. `encode` writes
messages whose data is one line; `feed` is the reader, one character at a time. `read_encode` is the
round trip, in whatever chunks the text arrives.
-/

namespace EventStream

open Strings

structure Message where
  event : Str
  data : Str
  deriving DecidableEq

/-! ## Writing -/

def encodeMessage (m : Message) : Str := "event: ".toList ++ m.event ++ "\ndata: ".toList ++ m.data ++ "\n\n".toList

def encode (messages : List Message) : Str := messages.flatMap encodeMessage

/-! ## Reading -/

structure Reader where
  line : Str
  /-- A carriage return has just ended a line. -/
  returned : Bool
  event : Str
  /-- The lines of data so far. -/
  data : Option Str
  messages : List Message

def Reader.start : Reader := ⟨[], false, [], none, []⟩

/-- A blank line: a message without data is dropped. -/
def Reader.dispatch (r : Reader) : Reader :=
  match r.data with
  | none => { r with event := [] }
  | some data =>
    { r with
      event := [], data := none, messages := r.messages ++ [⟨if r.event = [] then "message" else r.event, data⟩] }

def Reader.field (r : Reader) (name value : Str) : Reader :=
  if name = "event".toList then { r with event := value }
  else if name = "data".toList then
    { r with data := some (r.data.elim value fun data => data ++ '\n' :: value) }
  else r

/-- The value of a field: one blank behind the colon is not part of it. -/
def fieldValue : Str → Str
  | ':' :: ' ' :: value => value
  | ':' :: value => value
  | value => value

def Reader.endLine (r : Reader) : Reader :=
  let line := r.line
  let r := { r with line := [] }
  if line = [] then r.dispatch
  else r.field (line.takeWhile (· ≠ ':')) (fieldValue (line.dropWhile (· ≠ ':')))

def feed (r : Reader) (c : Char) : Reader :=
  if c = '\n' then
    if r.returned then { r with returned := false } else r.endLine
  else if c = '\r' then { r.endLine with returned := true }
  else { r with line := r.line ++ [c], returned := false }

def feedChunk (r : Reader) (chunk : Str) : Reader := chunk.foldl feed r

/-- What a reader gets of a text that arrives in chunks. -/
def read (chunks : List Str) : List Message := (chunks.foldl feedChunk Reader.start).messages

theorem foldl_chunks (chunks : List Str) (r : Reader) : chunks.foldl feedChunk r = chunks.flatten.foldl feed r := by
  induction chunks generalizing r with
  | nil => rfl
  | cons chunk chunks ih =>
    rw [List.foldl_cons, ih, List.flatten_cons, List.foldl_append, feedChunk]

/-! ## The round trip -/

/-- Characters that do not end a line. -/
def Inline (s : Str) : Prop := ∀ c ∈ s, c ≠ '\n' ∧ c ≠ '\r'

theorem inline_of_all {s : Str} (h : (s.all fun c => c != '\n' && c != '\r') = true) : Inline s := by
  intro c hc
  have := List.all_eq_true.1 h c hc
  simpa using this

/-- A message that one line each can hold. -/
structure Message.Plain (m : Message) : Prop where
  event : Inline m.event
  named : m.event ≠ []
  data : Inline m.data

theorem feed_inline {s : Str} (h : Inline s) (r : Reader) (hr : r.returned = false) :
    s.foldl feed r = { r with line := r.line ++ s } := by
  induction s generalizing r with
  | nil =>
    obtain ⟨line, returned, event, data, messages⟩ := r
    simp
  | cons c s ih =>
    obtain ⟨hn, hr'⟩ := h c List.mem_cons_self
    have hstep : feed r c = { r with line := r.line ++ [c], returned := false } := by
      rw [feed, if_neg hn, if_neg hr']
    rw [List.foldl_cons, hstep, ih (fun d hd => h d (List.mem_cons_of_mem _ hd)) _ rfl]
    obtain ⟨line, returned, event, data, messages⟩ := r
    obtain rfl : returned = false := hr
    simp

theorem feed_line {s : Str} (h : Inline s) (r : Reader) (hr : r.returned = false) :
    (s ++ ['\n']).foldl feed r = { r with line := r.line ++ s }.endLine := by
  obtain ⟨line, returned, event, data, messages⟩ := r
  obtain rfl : returned = false := hr
  rw [List.foldl_append, feed_inline h _ rfl]
  simp [feed]

theorem endLine_field {r : Reader} (h : r.line ≠ []) : r.endLine =
    { r with line := [] }.field (r.line.takeWhile (· ≠ ':')) (fieldValue (r.line.dropWhile (· ≠ ':'))) := by
  simp only [Reader.endLine, if_neg h]

theorem takeWhile_colon {name : Str} (h : ':' ∉ name) (value : Str) :
    (name ++ ':' :: value).takeWhile (· ≠ ':') = name ∧ (name ++ ':' :: value).dropWhile (· ≠ ':') = ':' :: value := by
  have hname : ∀ c ∈ name, decide (c ≠ ':') = true := by
    intro c hc
    simp only [ne_eq, decide_not, Bool.not_eq_true', decide_eq_false_iff_not]
    rintro rfl
    exact h hc
  rw [List.takeWhile_append_of_pos hname, List.dropWhile_append_of_pos hname]
  simp

/-- A field on a line of its own. -/
theorem feed_field {name value : Str} (hname : Inline name) (hcolon : ':' ∉ name) (hvalue : Inline value) (r : Reader)
    (hline : r.line = []) (hr : r.returned = false) :
    (name ++ ": ".toList ++ value ++ ['\n']).foldl feed r = r.field name value := by
  have hinline : Inline (name ++ ": ".toList ++ value) := by
    intro c hc
    simp only [List.mem_append] at hc
    rcases hc with (hc | hc) | hc
    · exact hname c hc
    · exact inline_of_all rfl c hc
    · exact hvalue c hc
  obtain ⟨line, returned, event, data, messages⟩ := r
  obtain rfl : line = [] := hline
  have hsplit : name ++ ": ".toList ++ value = name ++ ':' :: (' ' :: value) := by simp
  obtain ⟨htake, hdrop⟩ := takeWhile_colon hcolon (' ' :: value)
  rw [feed_line hinline _ hr, endLine_field (by simp)]
  simp only [List.nil_append, hsplit, htake, hdrop, fieldValue]

/-- Behind a field the line is empty. -/
theorem field_line (r : Reader) (name value : Str) :
    (r.field name value).line = r.line ∧ (r.field name value).returned = r.returned ∧
      (r.field name value).messages = r.messages := by
  unfold Reader.field
  split
  next => exact ⟨rfl, rfl, rfl⟩
  next => split <;> exact ⟨rfl, rfl, rfl⟩

/-- The two lines of a message. -/
def eventLine (m : Message) : Str := "event: ".toList ++ m.event

def dataLine (m : Message) : Str := "data: ".toList ++ m.data

theorem encodeMessage_lines (m : Message) : encodeMessage m = eventLine m ++ '\n' :: (dataLine m ++ ['\n', '\n']) := by
  have hdata : "\ndata: ".toList = '\n' :: "data: ".toList := by decide
  have hend : "\n\n".toList = ['\n', '\n'] := by decide
  unfold encodeMessage eventLine dataLine
  generalize "\ndata: ".toList = a at hdata ⊢
  generalize "\n\n".toList = b at hend ⊢
  subst hdata hend
  simp

theorem eventLine_inline {m : Message} (h : m.Plain) : Inline (eventLine m) := by
  intro c hc
  rcases List.mem_append.1 hc with hc | hc
  · exact inline_of_all rfl c hc
  · exact h.event c hc

theorem dataLine_inline {m : Message} (h : m.Plain) : Inline (dataLine m) := by
  intro c hc
  rcases List.mem_append.1 hc with hc | hc
  · exact inline_of_all rfl c hc
  · exact h.data c hc

theorem eventLine_colon (m : Message) : eventLine m = "event".toList ++ ':' :: (' ' :: m.event) := by
  have hsplit : "event: ".toList = "event".toList ++ [':', ' '] := by decide
  unfold eventLine
  generalize "event: ".toList = a at hsplit ⊢
  subst hsplit
  simp

theorem dataLine_colon (m : Message) : dataLine m = "data".toList ++ ':' :: (' ' :: m.data) := by
  have hsplit : "data: ".toList = "data".toList ++ [':', ' '] := by decide
  unfold dataLine
  generalize "data: ".toList = a at hsplit ⊢
  subst hsplit
  simp

theorem eventLine_ne (line : Str) (m : Message) : line ++ eventLine m ≠ [] := by
  have hne : "event: ".toList ≠ [] := by decide
  exact List.append_ne_nil_of_right_ne_nil _ (List.append_ne_nil_of_left_ne_nil hne _)

theorem feed_blank {r : Reader} (hline : r.line = []) (hr : r.returned = false) : feed r '\n' = r.dispatch := by
  obtain ⟨line, returned, event, data, messages⟩ := r
  obtain rfl : line = [] := hline
  obtain rfl : returned = false := hr
  rfl

theorem endLine_line (r : Reader) : r.endLine.line = [] ∧ r.endLine.returned = r.returned := by
  unfold Reader.endLine
  dsimp only
  split
  next =>
    unfold Reader.dispatch
    split <;> exact ⟨rfl, rfl⟩
  next =>
    obtain ⟨hline, hreturned, -⟩ := field_line { r with line := [] } (r.line.takeWhile (· ≠ ':'))
      (fieldValue (r.line.dropWhile (· ≠ ':')))
    exact ⟨hline, hreturned⟩

/-- A message behind what is left of a line. -/
theorem feed_onto {m : Message} (h : m.Plain) (r : Reader) (hr : r.returned = false) :
    (encodeMessage m).foldl feed r =
      ({ r with line := r.line ++ eventLine m }.endLine.field "data".toList m.data).dispatch := by
  have hsplit : encodeMessage m = (eventLine m ++ ['\n']) ++
      (("data".toList ++ ": ".toList ++ m.data ++ ['\n']) ++ ['\n']) := by
    rw [encodeMessage_lines, dataLine_colon]
    simp
  have hcolon : ':' ∉ "data".toList := by decide
  rw [hsplit, List.foldl_append, List.foldl_append, feed_line (eventLine_inline h) r hr]
  obtain ⟨hline, hreturned⟩ := endLine_line { r with line := r.line ++ eventLine m }
  generalize { r with line := r.line ++ eventLine m }.endLine = s at hline hreturned ⊢
  obtain ⟨hline', hreturned', -⟩ := field_line s "data".toList m.data
  rw [feed_field (inline_of_all rfl) hcolon h.data s hline (hreturned.trans hr)]
  exact feed_blank (hline'.trans hline) (hreturned'.trans (hreturned.trans hr))

/-- A message from the start of a line: data that stands there already is its first line. -/
theorem feed_message {m : Message} (h : m.Plain) (event : Str) (data : Option Str) (before : List Message) :
    (encodeMessage m).foldl feed ⟨[], false, event, data, before⟩ =
      ⟨[], false, [], none, before ++ [⟨m.event, data.elim m.data fun data => data ++ '\n' :: m.data⟩]⟩ := by
  have hname : ':' ∉ "event".toList := by decide
  have hline := eventLine_colon m
  obtain ⟨htake, hdrop⟩ := takeWhile_colon hname (' ' :: m.event)
  rw [feed_onto h _ rfl, endLine_field (eventLine_ne _ m)]
  simp only [List.nil_append, hline, htake, hdrop, fieldValue]
  cases data <;> simp [Reader.field, Reader.dispatch, h.named]

theorem feed_messages {messages : List Message} (h : ∀ m ∈ messages, m.Plain) (before : List Message) :
    (encode messages).foldl feed ⟨[], false, [], none, before⟩ = ⟨[], false, [], none, before ++ messages⟩ := by
  induction messages generalizing before with
  | nil => simp [encode]
  | cons m messages ih =>
    rw [encode, List.flatMap_cons, List.foldl_append, feed_message (h m List.mem_cons_self)]
    refine (ih (fun m' hm' => h m' (List.mem_cons_of_mem _ hm')) (before ++ [m])).trans ?_
    simp

/-- **What was written is read**, in whatever chunks it arrives. -/
theorem read_encode {messages : List Message} (h : ∀ m ∈ messages, m.Plain) {chunks : List Str}
    (hchunks : chunks.flatten = encode messages) : read chunks = messages := by
  rw [read, foldl_chunks, hchunks]
  exact congrArg Reader.messages (feed_messages h [])

/-! ## A message behind a cut one

A writer may stop within a message and another one go on: what is then read of the second message
depends on where the first was cut.
-/

/-- What is read of `m'` behind what is left of `m`. -/
inductive Pasted (m m' : Message) : Str → Message → Prop
  | between : Pasted m m' [] m'
  /-- Within the first line: its name is lost. -/
  | first {rest name : Str} : rest ≠ [] → '\n' ∉ rest → (name = "message".toList ∨ ∃ q, name = q ++ eventLine m') →
    Pasted m m' rest ⟨name, m'.data⟩
  | named : Pasted m m' (eventLine m ++ ['\n']) m'
  /-- Within the word `data`: the message has the name of the one before. -/
  | keyword {p : Str} : p ≠ [] → p <+: "data".toList → Pasted m m' (eventLine m ++ '\n' :: p) ⟨m.event, m'.data⟩
  | data {p q : Str} : Pasted m m' (eventLine m ++ '\n' :: ("data".toList ++ ':' :: p))
      ⟨m.event, q ++ eventLine m' ++ '\n' :: m'.data⟩
  | second : Pasted m m' (eventLine m ++ '\n' :: (dataLine m ++ ['\n'])) ⟨m'.event, m.data ++ '\n' :: m'.data⟩

theorem cut_cases {m : Message} {rest : Str} (hcut : rest <+: encodeMessage m) (hne : rest ≠ encodeMessage m) :
    rest <+: eventLine m ∨ (∃ p, rest = eventLine m ++ '\n' :: p ∧ p <+: dataLine m) ∨
      rest = eventLine m ++ '\n' :: (dataLine m ++ ['\n']) := by
  rw [encodeMessage_lines] at hcut hne
  rcases List.prefix_or_prefix_of_prefix hcut (List.prefix_append (eventLine m) _) with h | ⟨t, rfl⟩
  · exact .inl h
  · rw [List.prefix_append_right_inj] at hcut
    cases t with
    | nil =>
      rw [List.append_nil]
      exact .inl (List.prefix_refl _)
    | cons c p =>
      obtain ⟨rfl, hp⟩ := List.cons_prefix_cons.1 hcut
      rcases List.prefix_or_prefix_of_prefix hp (List.prefix_append (dataLine m) _) with h | ⟨u, rfl⟩
      · exact .inr (.inl ⟨p, rfl, h⟩)
      · rw [List.prefix_append_right_inj] at hp
        rcases u with _ | ⟨c, _ | ⟨d, u⟩⟩
        · rw [List.append_nil]
          exact .inr (.inl ⟨_, rfl, List.prefix_refl _⟩)
        · obtain ⟨rfl, -⟩ := List.cons_prefix_cons.1 hp
          exact .inr (.inr rfl)
        · obtain ⟨rfl, hlast⟩ := List.cons_prefix_cons.1 hp
          obtain ⟨rfl, hend⟩ := List.cons_prefix_cons.1 hlast
          obtain rfl := List.prefix_nil.1 hend
          exact absurd rfl hne

theorem fieldValue_append (p : Str) (m : Message) : ∃ q, fieldValue (':' :: (p ++ eventLine m)) = q ++ eventLine m := by
  have hevent : "event".toList = ['e', 'v', 'e', 'n', 't'] := by decide
  have hline : eventLine m = 'e' :: (['v', 'e', 'n', 't'] ++ ':' :: (' ' :: m.event)) := by
    rw [eventLine_colon, hevent]
    rfl
  unfold fieldValue
  split
  next value h =>
    cases p with
    | nil =>
      rw [List.nil_append, hline] at h
      cases h
    | cons c p =>
      cases h
      exact ⟨p, rfl⟩
  next value _ h =>
    cases h
    exact ⟨p, rfl⟩
  next _ h => exact absurd rfl (h _)

/-- Where a text has its first colon. -/
theorem colon_of_prefix {name value p : Str} (hp : p <+: name ++ ':' :: value) :
    p <+: name ∨ ∃ b, p = name ++ ':' :: b := by
  rcases List.prefix_or_prefix_of_prefix hp (List.prefix_append name _) with h | ⟨t, rfl⟩
  · exact .inl h
  · rw [List.prefix_append_right_inj] at hp
    cases t with
    | nil =>
      rw [List.append_nil]
      exact .inl (List.prefix_refl _)
    | cons c b =>
      obtain ⟨rfl, -⟩ := List.cons_prefix_cons.1 hp
      exact .inr ⟨b, rfl⟩

/-- What stands in front of a whole line hides its field. -/
theorem field_hidden {p : Str} (hne : p ≠ []) (hcolon : ':' ∉ p) (m : Message) {r : Reader}
    (hr : r.line = p ++ eventLine m) : r.endLine = { r with line := [] } := by
  have hname : ':' ∉ p ++ "event".toList := by
    rw [List.mem_append]
    rintro (h | h)
    · exact hcolon h
    · exact absurd h (by decide)
  have hline : r.line = (p ++ "event".toList) ++ ':' :: (' ' :: m.event) := by
    rw [hr, eventLine_colon, List.append_assoc]
  obtain ⟨htake, hdrop⟩ := takeWhile_colon hname (' ' :: m.event)
  have hevent : p ++ "event".toList ≠ "event".toList := by
    intro h
    exact hne (List.append_left_eq_self.1 h)
  have hdata : p ++ "event".toList ≠ "data".toList := by
    intro h
    have hlength := congrArg List.length h
    have hshort : "event".toList.length = 5 ∧ "data".toList.length = 4 := by decide
    rw [List.length_append, hshort.1, hshort.2] at hlength
    omega
  rw [endLine_field (by rw [hr]; exact eventLine_ne p m), hline, htake, Reader.field, if_neg hevent, if_neg hdata]

theorem feed_eventLine {m : Message} (h : m.Plain) (before : List Message) :
    (eventLine m ++ ['\n']).foldl feed ⟨[], false, [], none, before⟩ = ⟨[], false, m.event, none, before⟩ := by
  have hname : ':' ∉ "event".toList := by decide
  have hline := eventLine_colon m
  obtain ⟨htake, hdrop⟩ := takeWhile_colon hname (' ' :: m.event)
  rw [feed_line (eventLine_inline h) _ rfl, endLine_field (eventLine_ne _ m)]
  simp only [List.nil_append, hline, htake, hdrop, fieldValue]
  rw [Reader.field, if_pos rfl]

theorem feed_dataLine {m : Message} (h : m.Plain) (event : Str) (before : List Message) :
    (dataLine m ++ ['\n']).foldl feed ⟨[], false, event, none, before⟩ = ⟨[], false, event, some m.data, before⟩ := by
  have hname : ':' ∉ "data".toList := by decide
  have hdiff : "data".toList ≠ "event".toList := by decide
  have hline := dataLine_colon m
  obtain ⟨htake, hdrop⟩ := takeWhile_colon hname (' ' :: m.data)
  rw [feed_line (dataLine_inline h) _ rfl, endLine_field (by rw [hline]; simp)]
  simp only [List.nil_append, hline, htake, hdrop, fieldValue]
  rw [Reader.field, if_neg hdiff, if_pos rfl]
  rfl

/-- Behind a part of a field's name the message keeps its data only. -/
theorem feed_hidden {m : Message} (h : m.Plain) {p : Str} (hne : p ≠ []) (hcolon : ':' ∉ p) (event : Str)
    (before : List Message) : (encodeMessage m).foldl feed ⟨p, false, event, none, before⟩ =
      ⟨[], false, [], none, before ++ [⟨if event = [] then "message" else event, m.data⟩]⟩ := by
  have hdiff : "data".toList ≠ "event".toList := by decide
  rw [feed_onto h _ rfl, field_hidden hne hcolon m rfl, Reader.field, if_neg hdiff, if_pos rfl]
  rfl

/-- Behind the start of an event's name the message's own first line ends the name. -/
theorem feed_named {m : Message} (h : m.Plain) (b : Str) (before : List Message) : ∃ q,
    (encodeMessage m).foldl feed ⟨"event".toList ++ ':' :: b, false, [], none, before⟩ =
      ⟨[], false, [], none, before ++ [⟨q ++ eventLine m, m.data⟩]⟩ := by
  have hname : ':' ∉ "event".toList := by decide
  have hdiff : "data".toList ≠ "event".toList := by decide
  obtain ⟨q, hq⟩ := fieldValue_append b m
  obtain ⟨htake, hdrop⟩ := takeWhile_colon hname (b ++ eventLine m)
  refine ⟨q, ?_⟩
  rw [feed_onto h _ rfl, endLine_field (eventLine_ne _ m)]
  simp only [List.append_assoc, List.cons_append, htake, hdrop, hq]
  rw [Reader.field, if_pos rfl, Reader.field, if_neg hdiff, if_pos rfl]
  simp only [Reader.dispatch, Option.elim_none, if_neg (eventLine_ne q m)]

/-- Behind the start of the data the message's own first line ends the first line of data. -/
theorem feed_continued {m : Message} (h : m.Plain) (b : Str) {event : Str} (hevent : event ≠ [])
    (before : List Message) : ∃ q,
    (encodeMessage m).foldl feed ⟨"data".toList ++ ':' :: b, false, event, none, before⟩ =
      ⟨[], false, [], none, before ++ [⟨event, q ++ eventLine m ++ '\n' :: m.data⟩]⟩ := by
  have hname : ':' ∉ "data".toList := by decide
  have hdiff : "data".toList ≠ "event".toList := by decide
  obtain ⟨q, hq⟩ := fieldValue_append b m
  obtain ⟨htake, hdrop⟩ := takeWhile_colon hname (b ++ eventLine m)
  refine ⟨q, ?_⟩
  rw [feed_onto h _ rfl, endLine_field (eventLine_ne _ m)]
  simp only [List.append_assoc, List.cons_append, htake, hdrop, hq]
  rw [Reader.field, if_neg hdiff, if_pos rfl, Reader.field, if_neg hdiff, if_pos rfl]
  simp only [Reader.dispatch, Option.elim_none, Option.elim_some, if_neg hevent, List.append_assoc]

/-- What is read of a message behind a cut one. -/
theorem feed_pasted {m m' : Message} (h : m.Plain) (h' : m'.Plain) {rest : Str} (hcut : rest <+: encodeMessage m)
    (hne : rest ≠ encodeMessage m) (before : List Message) : ∃ last, Pasted m m' rest last ∧
      (rest ++ encodeMessage m').foldl feed ⟨[], false, [], none, before⟩ =
        ⟨[], false, [], none, before ++ [last]⟩ := by
  have hname : ':' ∉ "event".toList := by decide
  have hdata : ':' ∉ "data".toList := by decide
  rcases cut_cases hcut hne with hcase | ⟨p, rfl, hp⟩ | rfl
  · have hinline : Inline rest := fun c hc => eventLine_inline h c (hcase.subset hc)
    have hbreak : '\n' ∉ rest := fun hc => (hinline _ hc).1 rfl
    by_cases hempty : rest = []
    · subst hempty
      exact ⟨m', .between, feed_message h' [] none before⟩
    · rw [eventLine_colon] at hcase
      rw [List.foldl_append, feed_inline hinline _ rfl, List.nil_append]
      rcases colon_of_prefix hcase with hword | ⟨b, rfl⟩
      · exact ⟨_, .first hempty hbreak (.inl rfl), feed_hidden h' hempty (fun hc => hname (hword.subset hc)) [] before⟩
      · obtain ⟨q, hq⟩ := feed_named h' b before
        exact ⟨_, .first hempty hbreak (.inr ⟨q, rfl⟩), hq⟩
  · have hinline : Inline p := fun c hc => dataLine_inline h c (hp.subset hc)
    have hfeed : (eventLine m ++ '\n' :: p ++ encodeMessage m').foldl feed ⟨[], false, [], none, before⟩ =
        (encodeMessage m').foldl feed ⟨p, false, m.event, none, before⟩ := by
      have hsplit : eventLine m ++ '\n' :: p = (eventLine m ++ ['\n']) ++ p := by simp
      rw [hsplit, List.foldl_append, List.foldl_append, feed_eventLine h before,
        feed_inline hinline _ rfl, List.nil_append]
    rw [hfeed]
    by_cases hempty : p = []
    · subst hempty
      exact ⟨m', .named, feed_message h' m.event none before⟩
    · rw [dataLine_colon] at hp
      rcases colon_of_prefix hp with hword | ⟨b, rfl⟩
      · refine ⟨_, .keyword hempty hword, ?_⟩
        rw [feed_hidden h' hempty (fun hc => hdata (hword.subset hc)) m.event before, if_neg h.named]
      · obtain ⟨q, hq⟩ := feed_continued h' b h.named before
        exact ⟨_, .data, hq⟩
  · refine ⟨_, .second, ?_⟩
    have hsplit : eventLine m ++ '\n' :: (dataLine m ++ ['\n']) = (eventLine m ++ ['\n']) ++
        (dataLine m ++ ['\n']) := by simp
    rw [hsplit, List.foldl_append, List.foldl_append, feed_eventLine h before, feed_dataLine h, feed_message h']
    rfl

/-- **What is read of a message behind a cut one**, in whatever chunks both arrive. -/
theorem read_pasted {before : List Message} (hbefore : ∀ m ∈ before, m.Plain) {m m' : Message}
    (h : m.Plain) (h' : m'.Plain)
    {rest : Str} (hcut : rest <+: encodeMessage m) (hne : rest ≠ encodeMessage m) {chunks : List Str}
    (hchunks : chunks.flatten = encode before ++ (rest ++ encodeMessage m')) :
    ∃ last, Pasted m m' rest last ∧ read chunks = before ++ [last] := by
  obtain ⟨last, hlast, hfeed⟩ := feed_pasted h h' hcut hne before
  refine ⟨last, hlast, ?_⟩
  rw [read, foldl_chunks, hchunks, List.foldl_append, Reader.start, feed_messages hbefore, List.nil_append, hfeed]

end EventStream
