import SlurmWeb.Lib.Strings
import SlurmWeb.Lib.Except

/-!
# The assistant's conversation window (slurmweb/ai/service.py, persistence/ai_conversation_store.py)

`stream_chat` stores the user's message, reads the conversation back and hands it to the planner.
The two tables are one state whose fields are the constraints of the schema (ids are fresh and
unique, a message belongs to a conversation) and a clock that `NOW()` does not turn back.

| here | there |
| --- | --- |
| `listMessages` | `list_messages` (ai_conversation_store.py:233) |
| `addMessage` | `add_message` (:189) |
| `resolveConversation` | `_resolve_conversation` (service.py:440) |
| `contextRows`, `conversationContextMessages` | `_conversation_context_messages` (service.py:473) |
| `streamChat` | `stream_chat` (service.py:543), up to the first planner call |

* `listMessages_visible` — the window is the first `max_history_messages` messages.
* `context_is_window_iff` — it is the last ones exactly when it holds the whole conversation.
-/

namespace SlurmWeb.Chat

open Strings

/-! ## The two tables -/

structure Conversation where
  id : Nat
  cluster : Str
  username : Str
  title : Str
  modelConfigId : Option Nat
  deletedAt : Option Nat
deriving DecidableEq

structure Message where
  id : Nat
  conversationId : Nat
  role : Str
  content : Str
  modelConfigId : Option Nat
  createdAt : Nat
deriving DecidableEq

structure AIConversationStore where
  conversations : List Conversation
  messages : List Message
  nextConversation : Nat
  nextMessage : Nat
  /-- The last value of `NOW()`. -/
  clock : Nat
  conversation_lt : ∀ c ∈ conversations, c.id < nextConversation
  conversation_ids : (conversations.map Conversation.id).Nodup
  message_lt : ∀ m ∈ messages, m.id < nextMessage
  message_ids : (messages.map Message.id).Nodup
  message_conversation : ∀ m ∈ messages, ∃ c ∈ conversations, c.id = m.conversationId
  message_past : ∀ m ∈ messages, m.createdAt ≤ clock

/-- `ORDER BY m.created_at ASC, m.id ASC` -/
def before (a b : Message) : Prop := a.createdAt < b.createdAt ∨ a.createdAt = b.createdAt ∧ a.id ≤ b.id

instance : DecidableRel before := fun _ _ => inferInstanceAs (Decidable (_ ∨ _ ∧ _))

namespace AIConversationStore

/-- The `WHERE` clause of `list_messages`; a `NULL` user name matches every conversation. -/
def visible (cluster : Str) (username : Option Str) (conversationId : Nat) (includeDeleted : Bool)
    (c : Conversation) : Bool :=
  c.cluster == cluster && username.all (· == c.username) && c.id == conversationId &&
    (includeDeleted || c.deletedAt.isNone)

/-- `list_messages` (:233) -/
def listMessages (s : AIConversationStore) (cluster : Str) (username : Option Str) (conversationId : Nat)
    (limit : Nat) (includeDeleted : Bool) : List Message :=
  let joined := s.messages.filter fun m => s.conversations.any fun c =>
    c.id == m.conversationId && visible cluster username conversationId includeDeleted c
  (joined.insertionSort before).take limit

/-- `get_conversation` (:74) -/
def getConversation (s : AIConversationStore) (cluster username : Str) (conversationId : Nat) : Option Conversation :=
  s.conversations.find? fun c => c.cluster == cluster && c.username == username && c.id == conversationId &&
    c.deletedAt.isNone

/-- `create_conversation` (:46) -/
def createConversation (s : AIConversationStore) (cluster username title : Str) (modelConfigId : Option Nat) :
    AIConversationStore × Conversation :=
  let c : Conversation := ⟨s.nextConversation, cluster, username, title, modelConfigId, none⟩
  ({ s with
      conversations := s.conversations ++ [c]
      nextConversation := s.nextConversation + 1
      conversation_lt := by
        intro d hd
        rcases List.mem_append.1 hd with hd | hd
        · exact (s.conversation_lt d hd).trans (Nat.lt_succ_self _)
        · rw [List.mem_singleton.1 hd]; exact Nat.lt_succ_self _
      conversation_ids := by
        rw [List.map_append, List.nodup_append]
        refine ⟨s.conversation_ids, by simp, ?_⟩
        rintro _ hd _ he rfl
        obtain ⟨d, hd, hde⟩ := List.mem_map.1 hd
        have := s.conversation_lt d hd
        simp only [List.map_cons, List.map_nil, List.mem_singleton, c] at he
        omega
      message_conversation := fun m hm =>
        let ⟨d, hd, h⟩ := s.message_conversation m hm
        ⟨d, List.mem_append_left _ hd, h⟩ }, c)

/-- `add_message` (:189), `elapsed` after the last write; the foreign key refuses an unknown
conversation. -/
def addMessage (s : AIConversationStore) (conversationId : Nat) (role content : Str) (modelConfigId : Option Nat)
    (elapsed : Nat) : Option (AIConversationStore × Message) :=
  if h : ∃ c ∈ s.conversations, c.id = conversationId then
    let m : Message := ⟨s.nextMessage, conversationId, role, content, modelConfigId, s.clock + elapsed⟩
    some ({ s with
      messages := s.messages ++ [m]
      nextMessage := s.nextMessage + 1
      clock := s.clock + elapsed
      message_lt := by
        intro n hn
        rcases List.mem_append.1 hn with hn | hn
        · exact (s.message_lt n hn).trans (Nat.lt_succ_self _)
        · rw [List.mem_singleton.1 hn]; exact Nat.lt_succ_self _
      message_ids := by
        rw [List.map_append, List.nodup_append]
        refine ⟨s.message_ids, by simp, ?_⟩
        rintro _ hn _ he rfl
        obtain ⟨n, hn, hne⟩ := List.mem_map.1 hn
        have := s.message_lt n hn
        simp only [List.map_cons, List.map_nil, List.mem_singleton, m] at he
        omega
      message_conversation := by
        intro n hn
        rcases List.mem_append.1 hn with hn | hn
        · exact s.message_conversation n hn
        · rw [List.mem_singleton.1 hn]; exact h
      message_past := by
        intro n hn
        rcases List.mem_append.1 hn with hn | hn
        · exact (s.message_past n hn).trans (Nat.le_add_right _ _)
        · rw [List.mem_singleton.1 hn] }, m)
  else none

/-- The messages of a conversation in chronological order. -/
def chronological (s : AIConversationStore) (conversationId : Nat) : List Message :=
  (s.messages.filter fun m => m.conversationId == conversationId).insertionSort before

end AIConversationStore

/-! ## The service -/

/-- The errors `stream_chat` raises before it answers. -/
inductive AIRequestError
  | messageRequired
  | conversationNotFound (id : Nat)
  | modelConfig (message : Str)
  /-- The database refuses the message. -/
  | storage
deriving DecidableEq

def DEFAULT_MAX_HISTORY_MESSAGES : Nat := 24

/-- `_runtime_setting` (service.py:239); `none` where `int(value)` raises. -/
def runtimeSetting (value : Option Int) (default : Nat) : Nat :=
  match value with
  | some n => (max 1 n).toNat
  | none => default

/-- `_conversation_title` (:434) -/
def conversationTitle (message : Str) : Str :=
  let compact := [' '].intercalate (words message)
  if compact = [] then "New conversation" else compact.take 80

/-- The request of a chat; `modelConfigId` is what `_resolve_model_config` is asked for. -/
structure ChatRequest where
  message : Str
  conversationId : Option Nat
  modelConfigId : Option Nat

structure AIService where
  cluster : Str
  /-- `int(settings.ai.max_history_messages)` -/
  maxHistoryMessages : Option Int
  /-- `_resolve_model_config` (:454), the id of the configuration it returns. -/
  resolveModelConfig : Option Nat → Except AIRequestError Nat

/-- `_resolve_conversation` (:440) -/
def AIService.resolveConversation (service : AIService) (s : AIConversationStore) (login message : Str)
    (conversationId : Option Nat) (modelConfigId : Nat) : Except AIRequestError (AIConversationStore × Conversation) :=
  match conversationId with
  | some id =>
    match s.getConversation service.cluster login id with
    | none => .error (.conversationNotFound id)
    | some c => .ok (s, c)
  | none => .ok (s.createConversation service.cluster login (conversationTitle message) (some modelConfigId))

/-- The rows `_conversation_context_messages` (:473) reads. -/
def AIService.contextRows (service : AIService) (s : AIConversationStore) (login : Str) (conversationId : Nat) :
    List Message :=
  s.listMessages service.cluster (some login) conversationId
    (runtimeSetting service.maxHistoryMessages DEFAULT_MAX_HISTORY_MESSAGES) false

/-- `_conversation_context_messages` (:473): role and content of the rows. -/
def AIService.conversationContextMessages (service : AIService) (s : AIConversationStore) (login : Str)
    (conversationId : Nat) : List (Str × Str) :=
  (service.contextRows s login conversationId).map fun m => (m.role, m.content)

/-- What `stream_chat` holds when it first calls the planner. -/
structure ChatStart where
  store : AIConversationStore
  conversation : Conversation
  userMessage : Message
  workingMessages : List (Str × Str)

/-- `stream_chat` (:543) up to the first planner call. -/
def AIService.streamChat (service : AIService) (s : AIConversationStore) (login : Str) (request : ChatRequest)
    (elapsed : Nat) : Except AIRequestError ChatStart :=
  if strip request.message = [] then .error .messageRequired
  else do
    let modelConfigId ← service.resolveModelConfig request.modelConfigId
    let (s, conversation) ← service.resolveConversation s login (strip request.message)
        request.conversationId modelConfigId
    match s.addMessage conversation.id "user" (strip request.message) (some modelConfigId) elapsed with
    | none => .error .storage
    | some (s, userMessage) =>
      return ⟨s, conversation, userMessage, service.conversationContextMessages s login conversation.id⟩

/-! ## The window -/

instance : IsTrans Message before where
  trans a b c hab hbc := by simp only [before] at *; omega

instance : Std.Total before where
  total a b := by simp only [before]; omega

/-- The last `n` elements, or all. -/
def lastMessages (n : Nat) (l : List Message) : List Message := l.drop (l.length - n)

/-- The two ends of a list without repetition agree only when they are the whole list. -/
theorem take_eq_drop_iff {α : Type} {l : List α} (hl : l.Nodup) {n : Nat} (hn : 0 < n) :
    l.take n = l.drop (l.length - n) ↔ l.length ≤ n := by
  constructor
  · intro h
    by_contra hlt
    have h0 : (l.take n)[0]? = (l.drop (l.length - n))[0]? := by rw [h]
    rw [List.getElem?_take_of_lt hn, List.getElem?_drop, Nat.add_zero] at h0
    -- the first message would also be the one that opens the window
    rw [List.getElem?_eq_getElem (by omega), List.getElem?_eq_getElem (by omega), Option.some.injEq,
      hl.getElem_inj_iff] at h0
    omega
  · intro h
    rw [List.take_of_length_le h, Nat.sub_eq_zero_of_le h, List.drop_zero]

theorem getLast?_of_greatest {α : Type} {r : α → α → Prop} {l : List α} (hl : l.Pairwise r) {m : α} (hm : m ∈ l)
    (h : ∀ x ∈ l, r m x → x = m) : l.getLast? = some m := by
  rcases List.eq_nil_or_concat l with rfl | ⟨init, last, rfl⟩
  · cases hm
  · rw [List.concat_eq_append] at *
    rw [List.getLast?_concat]
    rcases List.mem_append.1 hm with hm | hm
    · have hr := (List.pairwise_append.1 hl).2.2 m hm last (by simp)
      rw [h last (by simp) hr]
    · rw [List.mem_singleton.1 hm]

namespace AIConversationStore

theorem chronological_nodup (s : AIConversationStore) (conversationId : Nat) : (s.chronological conversationId).Nodup :=
  (List.perm_insertionSort before _).nodup_iff.2 ((List.Nodup.of_map _ s.message_ids).filter _)

theorem mem_chronological {s : AIConversationStore} {conversationId : Nat} {m : Message} :
    m ∈ s.chronological conversationId ↔ m ∈ s.messages ∧ m.conversationId = conversationId := by
  simp [chronological]

/-- `list_messages` of a visible conversation: its first messages. -/
theorem listMessages_visible {s : AIConversationStore} {c : Conversation} (hc : c ∈ s.conversations)
    (hdel : c.deletedAt = none) (limit : Nat) :
    s.listMessages c.cluster (some c.username) c.id limit false = (s.chronological c.id).take limit := by
  have hjoin : ∀ m : Message, (s.conversations.any fun d => d.id == m.conversationId &&
      visible c.cluster (some c.username) c.id false d) = (m.conversationId == c.id) := by
    intro m
    rw [Bool.eq_iff_iff, List.any_eq_true, beq_iff_eq]
    constructor
    · rintro ⟨d, -, hd⟩
      simp only [visible, Bool.and_eq_true, beq_iff_eq] at hd
      exact hd.1.symm.trans hd.2.1.2
    · rintro h
      exact ⟨c, hc, by simp [visible, h, hdel]⟩
  simp only [listMessages, hjoin, chronological]

/-- What `add_message` leaves behind. -/
theorem addMessage_spec {s s' : AIConversationStore} {conversationId : Nat} {role content : Str}
    {modelConfigId : Option Nat} {elapsed : Nat} {m : Message}
    (h : s.addMessage conversationId role content modelConfigId elapsed = some (s', m)) :
    s'.messages = s.messages ++ [m] ∧ s'.conversations = s.conversations ∧ m.conversationId = conversationId ∧
      m.id = s.nextMessage ∧ m.createdAt = s.clock + elapsed := by
  unfold addMessage at h
  split at h
  · cases h; exact ⟨rfl, rfl, rfl, rfl, rfl⟩
  · cases h

/-- A message of a stored conversation is taken. -/
theorem addMessage_stores {s : AIConversationStore} {conversationId : Nat}
    (h : ∃ c ∈ s.conversations, c.id = conversationId)
    (role content : Str) (modelConfigId : Option Nat) (elapsed : Nat) :
    ∃ s' m, s.addMessage conversationId role content modelConfigId elapsed = some (s', m) := by
  rw [addMessage, dif_pos h]
  exact ⟨_, _, rfl⟩

/-- The row `add_message` returns. -/
theorem addMessage_row {s s' : AIConversationStore} {conversationId : Nat} {role content : Str}
    {modelConfigId : Option Nat} {elapsed : Nat} {m : Message}
    (h : s.addMessage conversationId role content modelConfigId elapsed = some (s', m)) :
    m.role = role ∧ m.content = content ∧ m.conversationId = conversationId := by
  unfold addMessage at h
  split at h
  · cases h; exact ⟨rfl, rfl, rfl⟩
  · cases h

/-- The message just stored ends its conversation. -/
theorem addMessage_last {s s' : AIConversationStore} {conversationId : Nat} {role content : Str}
    {modelConfigId : Option Nat} {elapsed : Nat} {m : Message}
    (h : s.addMessage conversationId role content modelConfigId elapsed = some (s', m)) :
    (s'.chronological conversationId).getLast? = some m := by
  obtain ⟨hmsgs, -, hconv, hid, hat⟩ := addMessage_spec h
  refine getLast?_of_greatest (List.pairwise_insertionSort before _) (mem_chronological.2 ⟨by simp [hmsgs], hconv⟩) ?_
  intro x hx hb
  have hx := (mem_chronological.1 hx).1
  rw [hmsgs, List.mem_append, List.mem_singleton] at hx
  rcases hx with hx | hx
  · have h1 := s.message_lt x hx
    have h2 := s.message_past x hx
    simp only [before] at hb
    omega
  · exact hx

theorem addMessage_length {s s' : AIConversationStore} {conversationId : Nat} {role content : Str}
    {modelConfigId : Option Nat} {elapsed : Nat} {m : Message}
    (h : s.addMessage conversationId role content modelConfigId elapsed = some (s', m)) :
    (s'.chronological conversationId).length = (s.chronological conversationId).length + 1 := by
  obtain ⟨hmsgs, -, hconv, -⟩ := addMessage_spec h
  simp [chronological, List.length_insertionSort, hmsgs, List.filter_append, hconv]

end AIConversationStore

/-- How many messages the conversation of a request holds before it; a new one holds none. -/
def storedMessages (s : AIConversationStore) (conversationId : Option Nat) : Nat :=
  match conversationId with
  | some id => s.messages.countP fun m => m.conversationId == id
  | none => 0

/-- The conversation a chat goes on with is the caller's and not deleted. -/
theorem resolveConversation_spec {service : AIService} {s s' : AIConversationStore} {login message : Str}
    {conversationId : Option Nat} {modelConfigId : Nat} {c : Conversation}
    (h : service.resolveConversation s login message conversationId modelConfigId = .ok (s', c)) :
    c ∈ s'.conversations ∧ c.cluster = service.cluster ∧ c.username = login ∧ c.deletedAt = none ∧
      (s'.chronological c.id).length = storedMessages s conversationId := by
  unfold AIService.resolveConversation at h
  cases conversationId with
  | some id =>
    simp only at h
    cases hget : s.getConversation service.cluster login id with
    | none => rw [hget] at h; cases h
    | some d =>
      rw [hget] at h
      cases h
      have hfound := List.find?_some hget
      simp only [Bool.and_eq_true, beq_iff_eq, Option.isNone_iff_eq_none] at hfound
      obtain ⟨⟨⟨h1, h2⟩, h3⟩, h4⟩ := hfound
      refine ⟨List.mem_of_find?_eq_some hget, h1, h2, h4, ?_⟩
      simp [AIConversationStore.chronological, List.length_insertionSort, storedMessages, h3,
        List.countP_eq_length_filter]
  | none =>
    cases h
    refine ⟨by simp, rfl, rfl, rfl, ?_⟩
    -- no message can belong to a conversation that did not exist
    have hnone : ∀ m ∈ s.messages, m.conversationId ≠ s.nextConversation := by
      intro m hm
      obtain ⟨d, hd, hdm⟩ := s.message_conversation m hm
      have := s.conversation_lt d hd
      omega
    simpa [AIConversationStore.chronological, List.length_insertionSort, storedMessages] using hnone

theorem runtimeSetting_pos (value : Option Int) {default : Nat} (h : 0 < default) :
    0 < runtimeSetting value default := by
  cases value with
  | none => exact h
  | some n => simp only [runtimeSetting]; omega

/-- The context handed to the planner is the end of the conversation, the user's message last. -/
structure ContextIsWindow (service : AIService) (login : Str) (start : ChatStart) : Prop where
  handed : start.workingMessages =
    (service.contextRows start.store login start.conversation.id).map fun m => (m.role, m.content)
  window : service.contextRows start.store login start.conversation.id =
    lastMessages (runtimeSetting service.maxHistoryMessages DEFAULT_MAX_HISTORY_MESSAGES)
      (start.store.chronological start.conversation.id)
  last : (service.contextRows start.store login start.conversation.id).getLast? = some start.userMessage

/-- What the planner is handed: the *first* messages of the conversation. -/
theorem streamChat_spec {service : AIService} {s : AIConversationStore} {login : Str}
    {request : ChatRequest} {elapsed : Nat}
    {start : ChatStart} (h : service.streamChat s login request elapsed = .ok start) :
    start.workingMessages = (service.contextRows start.store login start.conversation.id).map
      (fun m => (m.role, m.content)) ∧
    service.contextRows start.store login start.conversation.id =
      (start.store.chronological start.conversation.id).take
        (runtimeSetting service.maxHistoryMessages DEFAULT_MAX_HISTORY_MESSAGES) ∧
    (start.store.chronological start.conversation.id).getLast? = some start.userMessage ∧
    (start.store.chronological start.conversation.id).length = storedMessages s request.conversationId + 1 := by
  unfold AIService.streamChat at h
  split at h
  · cases h
  · obtain ⟨modelConfigId, -, h⟩ := Except.bind_eq_ok.1 h
    obtain ⟨⟨s1, c⟩, hres, h⟩ := Except.bind_eq_ok.1 h
    obtain ⟨hc, hcluster, hlogin, hdel, hlen⟩ := resolveConversation_spec hres
    simp only at h
    cases hadd : s1.addMessage c.id "user" (strip request.message) (some modelConfigId) elapsed with
    | none => rw [hadd] at h; cases h
    | some p =>
      obtain ⟨s2, m⟩ := p
      rw [hadd] at h
      cases h
      have hc2 : c ∈ s2.conversations := by rw [(AIConversationStore.addMessage_spec hadd).2.1]; exact hc
      refine ⟨rfl, ?_, AIConversationStore.addMessage_last
        hadd, by rw [AIConversationStore.addMessage_length hadd, hlen]⟩
      have := AIConversationStore.listMessages_visible hc2 hdel
        (runtimeSetting service.maxHistoryMessages DEFAULT_MAX_HISTORY_MESSAGES)
      rw [hcluster, hlogin] at this
      exact this

/-- **The window holds the end of the conversation if and only if it holds all of it.** -/
theorem context_is_window_iff {service : AIService} {s : AIConversationStore} {login : Str} {request : ChatRequest}
    {elapsed : Nat} {start : ChatStart} (h : service.streamChat s login request elapsed = .ok start) :
    ContextIsWindow service login start ↔ storedMessages s request.conversationId + 1 ≤
      runtimeSetting service.maxHistoryMessages DEFAULT_MAX_HISTORY_MESSAGES := by
  obtain ⟨hwork, hrows, hlast, hlen⟩ := streamChat_spec h
  have hpos := runtimeSetting_pos service.maxHistoryMessages (show 0 < DEFAULT_MAX_HISTORY_MESSAGES by decide)
  have hnodup := start.store.chronological_nodup start.conversation.id
  rw [← hlen, ← take_eq_drop_iff hnodup hpos]
  constructor
  · intro hw
    exact hrows.symm.trans hw.window
  · intro heq
    refine ⟨hwork, hrows.trans heq, ?_⟩
    rw [hrows, List.take_of_length_le ((take_eq_drop_iff hnodup hpos).1 heq), hlast]

/-- A conversation of two messages. -/
def existing : AIConversationStore where
  conversations := [⟨1, "test", "alice", "Existing", some 1, none⟩]
  messages := [⟨1, 1, "user", "m1", some 1, 1⟩, ⟨2, 1, "assistant", "m2", some 1, 2⟩]
  nextConversation := 2
  nextMessage := 3
  clock := 2
  conversation_lt := by simp
  conversation_ids := by simp
  message_lt := by simp
  message_ids := by simp
  message_conversation := by simp
  message_past := by simp

def windowOf (n : Int) : AIService := ⟨"test", some n, fun _ => .ok 1⟩

theorem chat_ok (n : Int) : ∃ start, (windowOf n).streamChat existing "alice" ⟨"hello", some 1, none⟩ 1 = .ok start :=
  Except.isOk_iff.1 (by rfl)

theorem context_is_window_three : ∃ start,
    (windowOf 3).streamChat existing "alice" ⟨"hello", some 1, none⟩ 1 = .ok start ∧
    (ContextIsWindow (windowOf 3) "alice" start ↔
      storedMessages existing (some 1) + 1 ≤ runtimeSetting (some 3) 24) := by
  obtain ⟨start, h⟩ := chat_ok 3
  exact ⟨start, h, context_is_window_iff h⟩

/-- A window of one: the planner is handed `m1`, neither the last message nor the question. -/
theorem window_drops_question :
    ¬ ∀ (service : AIService) (s : AIConversationStore) (login : Str) (request : ChatRequest) (elapsed : Nat)
      (start : ChatStart), service.streamChat s login request elapsed = .ok start →
        ContextIsWindow service login start := by
  intro h
  obtain ⟨start, hs⟩ := chat_ok 1
  have hids : ((windowOf 1).streamChat existing "alice" ⟨"hello", some 1, none⟩ 1).map (fun start =>
      (((windowOf 1).contextRows start.store "alice" start.conversation.id).getLast?.map Message.id,
        start.userMessage.id)) = .ok (some 1, 3) := by decide
  rw [hs] at hids
  obtain ⟨hfirst, hnew⟩ := Prod.mk.inj (Except.ok.inj hids)
  rw [(h _ _ _ _ _ start hs).last, Option.map_some, hnew] at hfirst
  cases hfirst

end SlurmWeb.Chat
