import SlurmWeb.Chat.Context

/-!
# Conversations of many users (slurmweb/persistence/ai_conversation_store.py, slurmweb/ai/service.py)

All conversations are rows of the same three tables, and the chats of all users write to them at
the same time: each holds the id of its conversation while it streams. A deleted conversation
keeps its rows for the audit.

| here | there |
| --- | --- |
| `createConversation`, `addMessage`, `softDelete`, `recordToolCall` | :46, :191, :263, :293 |
| `getConversation`, `getConversationById`, `listConversations` | :73, :106, :133 |
| `listMessages`, `listToolCalls` | :233, :350 |
| `next` | the store calls of `_resolve_conversation` (service.py:440), `stream_chat`, `delete_conversation` |
| `conversationDetail`, `anyConversationDetail` | `get_conversation_detail`, `get_any_conversation_detail` (:767, :817) |

The calls of one chat may come in any order here, which includes the one of `stream_chat`.
`NOW()` does not go back. Deleting a model configuration, which clears `model_config_id`, is not
among the steps.

* `isolation` — whatever other users do, a user reads the same conversations, messages, tool calls
  and context.
* `audit_grows` — what the audit has shown of a conversation stays, in its place.
* `deleted_stays` — a deleted conversation is never read by its user again, and never lost to the
  audit.
-/

namespace SlurmWeb.Conversations

open Strings

variable {J : Type}

/-! ## The tables -/

structure ConversationRow where
  id : Nat
  cluster : Str
  username : Str
  title : Str
  modelConfigId : Option Nat
  createdAt : Nat
  updatedAt : Nat
  deletedAt : Option Nat
  deletedBy : Option Str

structure MessageRow (J : Type) where
  id : Nat
  conversationId : Nat
  role : Str
  content : Str
  modelConfigId : Option Nat
  metadata : J
  createdAt : Nat

/-- What `record_tool_call` is given besides the conversation and the user. -/
structure ToolCall (J : Type) where
  messageId : Option Nat
  toolName : Str
  permission : Str
  interfaceKey : Option Str
  statusCode : Option Nat
  inputPayload : J
  resultSummary : Option Str
  status : Str
  error : Option Str
  durationMs : Option Nat

structure ToolCallRow (J : Type) where
  id : Nat
  conversationId : Nat
  cluster : Str
  username : Str
  call : ToolCall J
  createdAt : Nat

/-- `ORDER BY created_at ASC, id ASC` -/
def MessageRow.stamp (m : MessageRow J) : Nat ×ₗ Nat := toLex (m.createdAt, m.id)
def ToolCallRow.stamp (m : ToolCallRow J) : Nat ×ₗ Nat := toLex (m.createdAt, m.id)

/-- `ORDER BY updated_at DESC, id DESC` reads this order backwards. -/
def ConversationRow.stamp (c : ConversationRow) : Nat ×ₗ Nat := toLex (c.updatedAt, c.id)

structure Tables (J : Type) where
  conversations : List ConversationRow
  messages : List (MessageRow J)
  toolCalls : List (ToolCallRow J)

structure Store (J : Type) extends Tables J where
  nextConversation : Nat
  nextMessage : Nat
  nextToolCall : Nat
  clock : Nat

/-- A user of a cluster. -/
structure Account where
  cluster : Str
  login : Str
deriving DecidableEq

/-! ## Reading -/

namespace Tables

/-- The `WHERE` clause on the conversation; a `NULL` user name matches every conversation. -/
def visible (cluster : Str) (username : Option Str) (conversationId : Nat) (includeDeleted : Bool)
    (c : ConversationRow) : Bool :=
  c.cluster == cluster && username.all (· == c.username) && c.id == conversationId &&
    (includeDeleted || c.deletedAt.isNone)

variable (t : Tables J)

/-- The lateral join: the content of the latest message. -/
def lastMessage (conversationId : Nat) : Option Str :=
  ((t.messages.filter fun m => m.conversationId == conversationId).insertionSort
    fun m n => n.stamp ≤ m.stamp).head?.map MessageRow.content

/-- `get_conversation` (:73) -/
def getConversation (a : Account) (conversationId : Nat) (includeDeleted : Bool) :
    Option (ConversationRow × Option Str) :=
  (t.conversations.find? (visible a.cluster (some a.login) conversationId includeDeleted)).map fun c =>
    (c, t.lastMessage c.id)

/-- `get_conversation_by_id` (:106) -/
def getConversationById (cluster : Str) (conversationId : Nat) (includeDeleted : Bool) :
    Option (ConversationRow × Option Str) :=
  (t.conversations.find? (visible cluster none conversationId includeDeleted)).map fun c => (c, t.lastMessage c.id)

/-- The rows of a listing, the latest first. -/
def listed (limit : Nat) (rows : List ConversationRow) : List (ConversationRow × Option Str) :=
  ((rows.insertionSort fun c d => d.stamp ≤ c.stamp).take limit).map fun c => (c, t.lastMessage c.id)

/-- `list_conversations` (:133) -/
def listConversations (a : Account) (limit : Nat) (includeDeleted : Bool) : List (ConversationRow × Option Str) :=
  t.listed limit (t.conversations.filter fun c =>
    c.cluster == a.cluster && c.username == a.login && (includeDeleted || c.deletedAt.isNone))

/-- The join with a conversation the clause keeps. -/
def joined (cluster : Str) (username : Option Str) (conversationId : Nat) (includeDeleted : Bool) (id : Nat) : Bool :=
  t.conversations.any fun c => c.id == id && visible cluster username conversationId includeDeleted c

/-- `list_messages` (:233) -/
def listMessages (cluster : Str) (username : Option Str) (conversationId limit : Nat) (includeDeleted : Bool) :
    List (MessageRow J) :=
  ((t.messages.filter fun m => t.joined cluster username conversationId includeDeleted m.conversationId).insertionSort
    fun m n => m.stamp ≤ n.stamp).take limit

/-- `list_tool_calls` (:350) -/
def listToolCalls (cluster : Str) (username : Option Str) (conversationId limit : Nat) (includeDeleted : Bool) :
    List (ToolCallRow J) :=
  ((t.toolCalls.filter fun m => t.joined cluster username conversationId includeDeleted m.conversationId).insertionSort
    fun m n => m.stamp ≤ n.stamp).take limit

end Tables

/-- The answer of `get_conversation_detail`. -/
structure Detail (J : Type) where
  conversation : ConversationRow
  messages : List (MessageRow J)
  toolCalls : List (ToolCallRow J)

/-- `get_conversation_detail` (service.py:767), with the default limits of the store. -/
def conversationDetail (t : Tables J) (a : Account) (conversationId : Nat) : Option (Detail J) :=
  (t.getConversation a conversationId false).map fun row =>
    ⟨row.1, t.listMessages a.cluster (some a.login) conversationId 100 false,
      t.listToolCalls a.cluster (some a.login) conversationId 200 false⟩

/-- `get_any_conversation_detail` (service.py:817) -/
def anyConversationDetail (t : Tables J) (cluster : Str) (conversationId : Nat) : Option (Detail J) :=
  (t.getConversationById cluster conversationId true).map fun row =>
    ⟨row.1, t.listMessages cluster none conversationId 100 true, t.listToolCalls cluster none conversationId 200 true⟩

/-- `_conversation_context_messages` (service.py:473) -/
def contextMessages (t : Tables J) (a : Account) (historyLimit conversationId : Nat) : List (Str × Str) :=
  (t.listMessages a.cluster (some a.login) conversationId historyLimit false).map fun m => (m.role, m.content)

/-- All that the requests of a user can read. -/
structure View (J : Type) where
  list : List (ConversationRow × Option Str)
  detail : Nat → Option (Detail J)
  context : Nat → Nat → List (Str × Str)

def view (t : Tables J) (a : Account) : View J :=
  ⟨t.listConversations a 100 false, conversationDetail t a, contextMessages t a⟩

/-! ## Writing -/

namespace Store

variable (s : Store J)

/-- `create_conversation` (:46) -/
def createConversation (elapsed : Nat) (a : Account) (title : Str) (modelConfigId : Option Nat) : Store J × Nat :=
  ({ s with
      conversations := s.conversations ++ [⟨s.nextConversation, a.cluster, a.login, title, modelConfigId,
        s.clock + elapsed, s.clock + elapsed, none, none⟩]
      nextConversation := s.nextConversation + 1
      clock := s.clock + elapsed }, s.nextConversation)

/-- The `UPDATE` of `add_message` on a row. -/
def touch (conversationId now : Nat) (modelConfigId : Option Nat) (c : ConversationRow) : ConversationRow :=
  if c.id = conversationId then { c with modelConfigId := modelConfigId.or c.modelConfigId, updatedAt := now } else c

/-- `add_message` (:191); the foreign key refuses an unknown conversation. -/
def addMessage (elapsed conversationId : Nat) (role content : Str) (modelConfigId : Option Nat)
    (metadata : J) : Store J :=
  if s.conversations.any fun c => c.id == conversationId then
    { s with
      conversations := s.conversations.map (touch conversationId (s.clock + elapsed) modelConfigId)
      messages := s.messages ++
        [⟨s.nextMessage, conversationId, role, content, modelConfigId, metadata, s.clock + elapsed⟩]
      nextMessage := s.nextMessage + 1
      clock := s.clock + elapsed }
  else s

/-- `record_tool_call` (:293) -/
def recordToolCall (elapsed conversationId : Nat) (a : Account) (call : ToolCall J) : Store J :=
  if s.conversations.any fun c => c.id == conversationId then
    { s with
      toolCalls := s.toolCalls ++ [⟨s.nextToolCall, conversationId, a.cluster, a.login, call, s.clock + elapsed⟩]
      nextToolCall := s.nextToolCall + 1
      clock := s.clock + elapsed }
  else s

/-- The `UPDATE` of `soft_delete_conversation` on a row. -/
def retire (a : Account) (conversationId now : Nat) (c : ConversationRow) : ConversationRow :=
  if c.cluster = a.cluster ∧ c.username = a.login ∧ c.id = conversationId ∧ c.deletedAt = none then
    { c with deletedAt := some now, deletedBy := some a.login, updatedAt := now }
  else c

/-- `soft_delete_conversation` (:263), called with the user as `deleted_by`. -/
def softDelete (elapsed : Nat) (a : Account) (conversationId : Nat) : Store J :=
  { s with
    conversations := s.conversations.map (retire a conversationId (s.clock + elapsed))
    clock := s.clock + elapsed }

end Store

/-! ## Chats -/

/-- The store, and the conversations of the chats that are streaming. -/
structure System (J : Type) where
  store : Store J
  chats : Account → Nat → Option Nat

/-- What a request of a user does to the store; a chat has a number of its own. -/
inductive Action (J : Type)
  | start (chat : Nat) (message : Str) (conversationId : Option Nat) (modelConfigId : Nat)
  | message (chat : Nat) (role content : Str) (modelConfigId : Option Nat) (metadata : J)
  | tool (chat : Nat) (call : ToolCall J)
  | close (chat : Nat)
  | delete (conversationId : Nat)

structure Step (J : Type) where
  account : Account
  action : Action J
  elapsed : Nat

def System.attach (sys : System J) (a : Account) (chat : Nat) (conversationId : Option Nat) : System J :=
  { sys with chats := Function.update sys.chats a (Function.update (sys.chats a) chat conversationId) }

/-- One store call of one user. -/
def next (sys : System J) (st : Step J) : System J :=
  match st.action with
  | .start chat message conversationId modelConfigId =>
    -- `_resolve_conversation`: a conversation of another user, or a deleted one, is not found
    match conversationId with
    | some id =>
      match sys.store.getConversation st.account id false with
      | some row => sys.attach st.account chat (some row.1.id)
      | none => sys
    | none =>
      let (store, id) := sys.store.createConversation st.elapsed st.account (Chat.conversationTitle message)
        (some modelConfigId)
      { sys with store := store }.attach st.account chat (some id)
  | .message chat role content modelConfigId metadata =>
    match sys.chats st.account chat with
    | some id => { sys with store := sys.store.addMessage st.elapsed id role content modelConfigId metadata }
    | none => sys
  | .tool chat call =>
    match sys.chats st.account chat with
    | some id => { sys with store := sys.store.recordToolCall st.elapsed id st.account call }
    | none => sys
  | .close chat => sys.attach st.account chat none
  | .delete conversationId => { sys with store := sys.store.softDelete st.elapsed st.account conversationId }

def run (steps : List (Step J)) (sys : System J) : System J := steps.foldl next sys

def System.empty : System J := ⟨⟨⟨[], [], []⟩, 1, 1, 1, 0⟩, fun _ _ => none⟩

/-! ## A user's part of the tables -/

def owns (a : Account) (c : ConversationRow) : Bool := c.cluster == a.cluster && c.username == a.login

/-- The id is one of a conversation of the user. -/
def Tables.ownsId (t : Tables J) (a : Account) (id : Nat) : Bool := t.conversations.any fun c => c.id == id && owns a c

/-- The rows of a user's conversations. -/
def Tables.restrict (t : Tables J) (a : Account) : Tables J where
  conversations := t.conversations.filter (owns a)
  messages := t.messages.filter fun m => t.ownsId a m.conversationId
  toolCalls := t.toolCalls.filter fun m => t.ownsId a m.conversationId

theorem filter_filter_of_imp {α : Type} {p q : α → Bool} {l : List α} (h : ∀ x ∈ l, p x = true → q x = true) :
    (l.filter q).filter p = l.filter p := by
  rw [List.filter_filter]
  refine List.filter_congr fun x hx => ?_
  cases hp : p x with
  | true => simp [h x hx hp]
  | false => simp

theorem find?_filter_of_imp {α : Type} {p q : α → Bool} {l : List α} (h : ∀ x ∈ l, p x = true → q x = true) :
    (l.filter q).find? p = l.find? p := by
  rw [← List.head?_filter, ← List.head?_filter, filter_filter_of_imp h]

theorem visible_owns {a : Account} {id : Nat} {includeDeleted : Bool} {c : ConversationRow}
    (h : Tables.visible a.cluster (some a.login) id includeDeleted c = true) : owns a c = true := by
  simp only [Tables.visible, Option.all_some, Bool.and_eq_true, beq_iff_eq] at h
  simp [owns, h.1.1.1, h.1.1.2]

section Restrict

variable (t : Tables J) (a : Account)

/-- The join with the user's conversations keeps the rows of these only. -/
theorem joined_restrict (conversationId id : Nat) (includeDeleted : Bool) :
    (t.restrict a).joined a.cluster (some a.login) conversationId includeDeleted id =
      t.joined a.cluster (some a.login) conversationId includeDeleted id := by
  rw [Bool.eq_iff_iff]
  simp only [Tables.joined, Tables.restrict, List.any_eq_true, List.mem_filter, Bool.and_eq_true]
  constructor
  · rintro ⟨c, ⟨hc, -⟩, hid, hv⟩
    exact ⟨c, hc, hid, hv⟩
  · rintro ⟨c, hc, hid, hv⟩
    exact ⟨c, ⟨hc, visible_owns hv⟩, hid, hv⟩

theorem ownsId_of_joined {t : Tables J} {a : Account} {conversationId id : Nat} {includeDeleted : Bool}
    (h : t.joined a.cluster (some a.login) conversationId includeDeleted id = true) : t.ownsId a id = true := by
  simp only [Tables.joined, List.any_eq_true, Bool.and_eq_true] at h
  obtain ⟨c, hc, hid, hv⟩ := h
  simp only [Tables.ownsId, List.any_eq_true, Bool.and_eq_true]
  exact ⟨c, hc, hid, visible_owns hv⟩

theorem listMessages_restrict (conversationId limit : Nat) (includeDeleted : Bool) :
    (t.restrict a).listMessages a.cluster (some a.login) conversationId limit includeDeleted =
      t.listMessages a.cluster (some a.login) conversationId limit includeDeleted := by
  simp only [Tables.listMessages, joined_restrict]
  rw [Tables.restrict, filter_filter_of_imp fun m _ hm => ownsId_of_joined hm]

theorem listToolCalls_restrict (conversationId limit : Nat) (includeDeleted : Bool) :
    (t.restrict a).listToolCalls a.cluster (some a.login) conversationId limit includeDeleted =
      t.listToolCalls a.cluster (some a.login) conversationId limit includeDeleted := by
  simp only [Tables.listToolCalls, joined_restrict]
  rw [Tables.restrict, filter_filter_of_imp fun m _ hm => ownsId_of_joined hm]

theorem lastMessage_restrict {t : Tables J} {a : Account} {id : Nat} (h : t.ownsId a id = true) :
    (t.restrict a).lastMessage id = t.lastMessage id := by
  unfold Tables.lastMessage Tables.restrict
  rw [filter_filter_of_imp]
  intro m _ hm
  rwa [beq_iff_eq.1 hm]

theorem ownsId_of_mem {t : Tables J} {a : Account} {c : ConversationRow} (hc : c ∈ t.conversations)
    (h : owns a c = true) : t.ownsId a c.id = true := by
  simp only [Tables.ownsId, List.any_eq_true, Bool.and_eq_true]
  exact ⟨c, hc, by simp, h⟩

theorem getConversation_restrict (conversationId : Nat) (includeDeleted : Bool) :
    (t.restrict a).getConversation a conversationId includeDeleted =
      t.getConversation a conversationId includeDeleted := by
  unfold Tables.getConversation
  have hfind : (t.restrict a).conversations.find?
      (Tables.visible a.cluster (some a.login) conversationId includeDeleted) =
      t.conversations.find? (Tables.visible a.cluster (some a.login) conversationId includeDeleted) :=
    find?_filter_of_imp fun c _ hc => visible_owns hc
  rw [hfind]
  cases hc : t.conversations.find? (Tables.visible a.cluster (some a.login) conversationId includeDeleted) with
  | none => rfl
  | some c =>
    have hown := ownsId_of_mem (List.mem_of_find?_eq_some hc) (visible_owns (List.find?_some hc))
    simp only [Option.map_some, lastMessage_restrict hown]

theorem listConversations_restrict (limit : Nat) (includeDeleted : Bool) :
    (t.restrict a).listConversations a limit includeDeleted = t.listConversations a limit includeDeleted := by
  unfold Tables.listConversations
  have hrows : ((t.restrict a).conversations.filter fun c =>
      c.cluster == a.cluster && c.username == a.login && (includeDeleted || c.deletedAt.isNone)) =
      t.conversations.filter fun c =>
        c.cluster == a.cluster && c.username == a.login && (includeDeleted || c.deletedAt.isNone) := by
    refine filter_filter_of_imp fun c _ hc => ?_
    rw [Bool.and_eq_true] at hc
    exact hc.1
  rw [hrows]
  refine List.map_congr_left fun c hc => ?_
  have hmem := (List.perm_insertionSort _ _).mem_iff.1 (List.mem_of_mem_take hc)
  rw [List.mem_filter, Bool.and_eq_true] at hmem
  rw [lastMessage_restrict (ownsId_of_mem hmem.1 hmem.2.1)]

/-- What a user reads depends on the user's part of the tables only. -/
theorem view_restrict : view (t.restrict a) a = view t a := by
  simp only [view, listConversations_restrict]
  congr 1
  · funext id
    simp only [conversationDetail, getConversation_restrict, listMessages_restrict, listToolCalls_restrict]
  · funext limit id
    simp only [contextMessages, listMessages_restrict]

end Restrict

/-! ## Invariants -/

structure Store.Wf (s : Store J) : Prop where
  ids : (s.conversations.map ConversationRow.id).Nodup
  lt : ∀ c ∈ s.conversations, c.id < s.nextConversation
  messages : s.messages.Pairwise fun m n => m.stamp ≤ n.stamp
  messages_lt : ∀ m ∈ s.messages, m.id < s.nextMessage ∧ m.createdAt ≤ s.clock
  messages_conversation : ∀ m ∈ s.messages, ∃ c ∈ s.conversations, c.id = m.conversationId
  toolCalls : s.toolCalls.Pairwise fun m n => m.stamp ≤ n.stamp
  toolCalls_lt : ∀ m ∈ s.toolCalls, m.id < s.nextToolCall ∧ m.createdAt ≤ s.clock
  toolCalls_conversation : ∀ m ∈ s.toolCalls, ∃ c ∈ s.conversations, c.id = m.conversationId

/-- A chat holds a conversation of its user. -/
structure System.Wf (sys : System J) : Prop where
  store : sys.store.Wf
  chats : ∀ a chat id, sys.chats a chat = some id → sys.store.ownsId a id = true

/-- Two rows with one id are one row. -/
theorem Store.Wf.unique {s : Store J} (h : s.Wf) {c d : ConversationRow} (hc : c ∈ s.conversations)
    (hd : d ∈ s.conversations) (hid : c.id = d.id) : c = d :=
  List.inj_on_of_nodup_map h.ids hc hd hid

/-- No conversation belongs to two users. -/
theorem Store.Wf.owner {s : Store J} (h : s.Wf) {a b : Account} {id : Nat} (ha : s.ownsId a id = true)
    (hb : s.ownsId b id = true) : a = b := by
  simp only [Tables.ownsId, List.any_eq_true, Bool.and_eq_true, beq_iff_eq, owns] at ha hb
  obtain ⟨c, hc, hcid, hca⟩ := ha
  obtain ⟨d, hd, hdid, hdb⟩ := hb
  obtain rfl := h.unique hc hd (hcid.trans hdid.symm)
  cases a
  cases b
  simp_all

/-! ### Rows rewritten in place -/

/-- An `UPDATE` that leaves the id and the owner of every row. -/
structure Rewrites (f : ConversationRow → ConversationRow) : Prop where
  id : ∀ c, (f c).id = c.id
  cluster : ∀ c, (f c).cluster = c.cluster
  username : ∀ c, (f c).username = c.username

theorem touch_rewrites (conversationId now : Nat) (modelConfigId : Option Nat) :
    Rewrites (Store.touch conversationId now modelConfigId) := by
  refine ⟨?_, ?_, ?_⟩ <;>
  · intro c
    unfold Store.touch
    split <;> rfl

theorem retire_rewrites (a : Account) (conversationId now : Nat) : Rewrites (Store.retire a conversationId now) := by
  refine ⟨?_, ?_, ?_⟩ <;>
  · intro c
    unfold Store.retire
    split <;> rfl

section Rewritten

variable {f : ConversationRow → ConversationRow} (hf : Rewrites f)
include hf

theorem Rewrites.owns (a : Account) (c : ConversationRow) : owns a (f c) = owns a c := by
  simp [Conversations.owns, hf.cluster, hf.username]

theorem Rewrites.ownsId (t : Tables J) (a : Account) (id : Nat) :
    Tables.ownsId { t with conversations := t.conversations.map f } a id = t.ownsId a id := by
  simp [Tables.ownsId, List.any_map, Function.comp_def, hf.id, hf.owns]

theorem Rewrites.ids (l : List ConversationRow) : (l.map f).map ConversationRow.id = l.map ConversationRow.id := by
  simp [Function.comp_def, hf.id]

theorem Rewrites.conversation {l : List ConversationRow} {id : Nat} :
    (∃ c ∈ l.map f, c.id = id) ↔ ∃ c ∈ l, c.id = id := by
  simp [hf.id]

/-- An `UPDATE` that meets no row of a user leaves the user's part. -/
theorem Rewrites.restrict {t : Tables J} {a : Account}
    (h : ∀ c ∈ t.conversations, Conversations.owns a c = true → f c = c) :
    Tables.restrict { t with conversations := t.conversations.map f } a = t.restrict a := by
  have hrows : (t.conversations.map f).filter (Conversations.owns a) =
      t.conversations.filter (Conversations.owns a) := by
    rw [List.filter_map]
    have hcomp : Conversations.owns a ∘ f = Conversations.owns a := by
      funext c
      exact hf.owns a c
    rw [hcomp]
    refine (List.map_congr_left fun c hc => ?_).trans (List.map_id' _)
    exact h c (List.mem_filter.1 hc).1 (List.mem_filter.1 hc).2
  unfold Tables.restrict
  simp only [hf.ownsId, hrows]

end Rewritten

/-! ### What a store call does -/

/-- The later tables hold every row of the earlier ones: conversations with their owner, title and
deletion, messages and tool calls as they were and where they were. -/
structure RowExtends (c d : ConversationRow) : Prop where
  id : d.id = c.id
  cluster : d.cluster = c.cluster
  username : d.username = c.username
  title : d.title = c.title
  createdAt : d.createdAt = c.createdAt
  deleted : ∀ now, c.deletedAt = some now → d.deletedAt = some now ∧ d.deletedBy = c.deletedBy

structure Tables.Extends (t t' : Tables J) : Prop where
  conversations : ∀ c ∈ t.conversations, ∃ d ∈ t'.conversations, RowExtends c d
  messages : t.messages <+: t'.messages
  toolCalls : t.toolCalls <+: t'.toolCalls

theorem RowExtends.refl (c : ConversationRow) : RowExtends c c := ⟨rfl, rfl, rfl, rfl, rfl, fun _ h => ⟨h, rfl⟩⟩

theorem RowExtends.trans {c d e : ConversationRow} (h : RowExtends c d) (h' : RowExtends d e) : RowExtends c e := by
  refine ⟨h'.id.trans h.id, h'.cluster.trans h.cluster, h'.username.trans h.username, h'.title.trans h.title,
    h'.createdAt.trans h.createdAt, ?_⟩
  intro now hnow
  obtain ⟨hd, hby⟩ := h.deleted now hnow
  obtain ⟨he, hby'⟩ := h'.deleted now hd
  exact ⟨he, hby'.trans hby⟩

theorem Tables.Extends.refl (t : Tables J) : t.Extends t :=
  ⟨fun c hc => ⟨c, hc, .refl c⟩, List.prefix_refl _, List.prefix_refl _⟩

theorem Tables.Extends.trans {t u v : Tables J} (h : t.Extends u) (h' : u.Extends v) : t.Extends v := by
  refine ⟨?_, h.messages.trans h'.messages, h.toolCalls.trans h'.toolCalls⟩
  intro c hc
  obtain ⟨d, hd, hcd⟩ := h.conversations c hc
  obtain ⟨e, he, hde⟩ := h'.conversations d hd
  exact ⟨e, he, hcd.trans hde⟩

theorem touch_extends (conversationId now : Nat) (modelConfigId : Option Nat) (c : ConversationRow) :
    RowExtends c (Store.touch conversationId now modelConfigId c) := by
  unfold Store.touch
  split
  · exact ⟨rfl, rfl, rfl, rfl, rfl, fun _ h => ⟨h, rfl⟩⟩
  · exact .refl c

/-- `soft_delete_conversation` does not delete twice. -/
theorem retire_extends (a : Account) (conversationId now : Nat) (c : ConversationRow) :
    RowExtends c (Store.retire a conversationId now c) := by
  unfold Store.retire
  split
  · rename_i h
    refine ⟨rfl, rfl, rfl, rfl, rfl, ?_⟩
    intro at_ hat
    rw [h.2.2.2] at hat
    cases hat
  · exact .refl c

/-- A message of somebody else's conversation is not in a user's part. -/
theorem restrict_append_message {t : Tables J} {a : Account} {m : MessageRow J}
    (h : t.ownsId a m.conversationId = false) :
    Tables.restrict { t with messages := t.messages ++ [m] } a = t.restrict a := by
  have hfilter : (t.messages ++ [m]).filter (fun m => t.ownsId a m.conversationId) =
      t.messages.filter fun m => t.ownsId a m.conversationId := by
    simp [List.filter_append, h]
  exact congrArg (fun l => (⟨t.conversations.filter (owns a), l,
    t.toolCalls.filter fun m => t.ownsId a m.conversationId⟩ : Tables J)) hfilter

theorem restrict_append_toolCall {t : Tables J} {a : Account} {m : ToolCallRow J}
    (h : t.ownsId a m.conversationId = false) :
    Tables.restrict { t with toolCalls := t.toolCalls ++ [m] } a = t.restrict a := by
  have hfilter : (t.toolCalls ++ [m]).filter (fun m => t.ownsId a m.conversationId) =
      t.toolCalls.filter fun m => t.ownsId a m.conversationId := by
    simp [List.filter_append, h]
  exact congrArg (fun l => (⟨t.conversations.filter (owns a),
    t.messages.filter fun m => t.ownsId a m.conversationId, l⟩ : Tables J)) hfilter

/-- A call of a user on the store: what it keeps, whom it leaves alone, and what stays readable. -/
structure Store.Moves (s : Store J) (b : Account) (s' : Store J) : Prop where
  wf : s'.Wf
  extend : s.toTables.Extends s'.toTables
  others : ∀ a, b ≠ a → s'.restrict a = s.restrict a
  owned : ∀ a id, s.ownsId a id = true → s'.ownsId a id = true

variable {s : Store J}

theorem Store.Moves.refl (h : s.Wf) (b : Account) : s.Moves b s := ⟨h, .refl _, fun _ _ => rfl, fun _ _ h => h⟩

theorem createConversation_moves (h : s.Wf) (elapsed : Nat) (b : Account) (title : Str) (modelConfigId : Option Nat) :
    s.Moves b (s.createConversation elapsed b title modelConfigId).1 := by
  have hnone : ∀ id, (∃ c ∈ s.conversations, c.id = id) → id ≠ s.nextConversation := by
    rintro id ⟨c, hc, rfl⟩
    have := h.lt c hc
    omega
  refine ⟨⟨?_, ?_, h.messages, ?_, ?_, h.toolCalls, ?_, ?_⟩, ⟨?_, List.prefix_refl _, List.prefix_refl _⟩, ?_, ?_⟩
  · simp only [Store.createConversation, List.map_append, List.map_cons, List.map_nil, List.nodup_append]
    refine ⟨h.ids, by simp, ?_⟩
    intro x hx y hy
    rw [List.mem_singleton] at hy
    obtain ⟨c, hc, rfl⟩ := List.mem_map.1 hx
    rw [hy]
    exact hnone c.id ⟨c, hc, rfl⟩
  · intro c hc
    simp only [Store.createConversation, List.mem_append, List.mem_singleton] at hc ⊢
    rcases hc with hc | rfl
    · have := h.lt c hc
      omega
    · simp
  · intro m hm
    have := h.messages_lt m hm
    exact ⟨this.1, this.2.trans (Nat.le_add_right _ _)⟩
  · intro m hm
    obtain ⟨c, hc, hid⟩ := h.messages_conversation m hm
    exact ⟨c, List.mem_append_left _ hc, hid⟩
  · intro m hm
    have := h.toolCalls_lt m hm
    exact ⟨this.1, this.2.trans (Nat.le_add_right _ _)⟩
  · intro m hm
    obtain ⟨c, hc, hid⟩ := h.toolCalls_conversation m hm
    exact ⟨c, List.mem_append_left _ hc, hid⟩
  · intro c hc
    exact ⟨c, List.mem_append_left _ hc, .refl c⟩
  · intro a hab
    have hown : owns a ⟨s.nextConversation, b.cluster, b.login, title, modelConfigId, s.clock + elapsed,
        s.clock + elapsed, none, none⟩ = false := by
      rw [← Bool.not_eq_true]
      intro hb
      simp only [owns, Bool.and_eq_true, beq_iff_eq] at hb
      cases a
      cases b
      simp_all
    simp only [Store.createConversation, Tables.restrict, Tables.ownsId, List.filter_append, List.any_append,
      List.filter_cons, List.filter_nil, List.any_cons, List.any_nil, hown, Bool.and_false, Bool.or_false,
      Bool.false_eq_true, if_false, List.append_nil]
  · intro a id hid
    simp only [Store.createConversation, Tables.ownsId, List.any_append, Bool.or_eq_true] at hid ⊢
    exact .inl hid

/-- An `UPDATE` in place and some time. -/
theorem rewrite_moves (h : s.Wf) {f : ConversationRow → ConversationRow} (hf : Rewrites f)
    (hext : ∀ c, RowExtends c (f c))
    (b : Account) (hothers : ∀ c ∈ s.conversations, f c ≠ c → owns b c = true) (elapsed : Nat) :
    s.Moves b { s with conversations := s.conversations.map f, clock := s.clock + elapsed } := by
  refine ⟨⟨?_, ?_, h.messages, ?_, ?_, h.toolCalls, ?_, ?_⟩, ⟨?_, List.prefix_refl _, List.prefix_refl _⟩, ?_, ?_⟩
  · rw [hf.ids]
    exact h.ids
  · intro c hc
    obtain ⟨d, hd, rfl⟩ := List.mem_map.1 hc
    rw [hf.id]
    exact h.lt d hd
  · intro m hm
    have := h.messages_lt m hm
    exact ⟨this.1, this.2.trans (Nat.le_add_right _ _)⟩
  · intro m hm
    exact hf.conversation.2 (h.messages_conversation m hm)
  · intro m hm
    have := h.toolCalls_lt m hm
    exact ⟨this.1, this.2.trans (Nat.le_add_right _ _)⟩
  · intro m hm
    exact hf.conversation.2 (h.toolCalls_conversation m hm)
  · intro c hc
    exact ⟨f c, List.mem_map_of_mem hc, hext c⟩
  · intro a hab
    refine hf.restrict fun c hc hown => ?_
    by_contra hne
    have hb := hothers c hc hne
    exact hab (h.owner (ownsId_of_mem hc hb) (ownsId_of_mem hc hown))
  · intro a id hid
    exact (hf.ownsId s.toTables a id).trans hid

theorem touch_owner (h : s.Wf) {b : Account} {id : Nat} (hb : s.ownsId b id = true) (now : Nat)
    (modelConfigId : Option Nat) :
    ∀ c ∈ s.conversations, Store.touch id now modelConfigId c ≠ c → owns b c = true := by
  intro c hc hne
  have hid : c.id = id := by
    by_contra hno
    exact hne (by simp [Store.touch, hno])
  simp only [Tables.ownsId, List.any_eq_true, Bool.and_eq_true, beq_iff_eq] at hb
  obtain ⟨d, hd, hdid, hown⟩ := hb
  obtain rfl := h.unique hc hd (hid.trans hdid.symm)
  exact hown

theorem addMessage_moves (h : s.Wf) {b : Account} {id : Nat} (hb : s.ownsId b id = true) (elapsed : Nat)
    (role content : Str) (modelConfigId : Option Nat) (metadata : J) :
    s.Moves b (s.addMessage elapsed id role content modelConfigId metadata) := by
  unfold Store.addMessage
  split
  · rename_i hany
    have hstep := rewrite_moves h (touch_rewrites id (s.clock + elapsed) modelConfigId)
      (touch_extends id (s.clock + elapsed) modelConfigId) b (touch_owner h hb _ _) elapsed
    have hconv : ∃ c ∈ s.conversations, c.id = id := by
      obtain ⟨c, hc, hid⟩ := List.any_eq_true.1 hany
      exact ⟨c, hc, by simpa using hid⟩
    refine ⟨⟨hstep.wf.ids, hstep.wf.lt, ?_, ?_, ?_, hstep.wf.toolCalls, hstep.wf.toolCalls_lt,
      hstep.wf.toolCalls_conversation⟩, ⟨hstep.extend.conversations, List.prefix_append _ _, List.prefix_refl _⟩, ?_,
      hstep.owned⟩
    · rw [List.pairwise_append]
      refine ⟨h.messages, by simp, ?_⟩
      intro m hm n hn
      rw [List.mem_singleton.1 hn]
      have := h.messages_lt m hm
      simp only [MessageRow.stamp, Prod.Lex.toLex_le_toLex]
      omega
    · intro m hm
      rcases List.mem_append.1 hm with hm | hm
      · have := h.messages_lt m hm
        simp only
        omega
      · rw [List.mem_singleton.1 hm]
        simp
    · intro m hm
      refine (touch_rewrites id (s.clock + elapsed) modelConfigId).conversation.2 ?_
      rcases List.mem_append.1 hm with hm | hm
      · exact h.messages_conversation m hm
      · rw [List.mem_singleton.1 hm]
        exact hconv
    · intro a hab
      refine (restrict_append_message ?_).trans (hstep.others a hab)
      refine ((touch_rewrites id (s.clock + elapsed) modelConfigId).ownsId s.toTables a id).trans ?_
      rw [← Bool.not_eq_true]
      intro ha
      exact hab (h.owner hb ha)
  · exact .refl h b

theorem recordToolCall_moves (h : s.Wf) {b : Account} {id : Nat} (hb : s.ownsId b id = true) (elapsed : Nat)
    (call : ToolCall J) : s.Moves b (s.recordToolCall elapsed id b call) := by
  unfold Store.recordToolCall
  split
  · rename_i hany
    have hconv : ∃ c ∈ s.conversations, c.id = id := by
      obtain ⟨c, hc, hid⟩ := List.any_eq_true.1 hany
      exact ⟨c, hc, by simpa using hid⟩
    refine ⟨⟨h.ids, h.lt, h.messages, ?_, h.messages_conversation, ?_, ?_, ?_⟩,
      ⟨fun c hc => ⟨c, hc, .refl c⟩, List.prefix_refl _, List.prefix_append _ _⟩, ?_, fun _ _ hid => hid⟩
    · intro m hm
      have := h.messages_lt m hm
      exact ⟨this.1, this.2.trans (Nat.le_add_right _ _)⟩
    · rw [List.pairwise_append]
      refine ⟨h.toolCalls, by simp, ?_⟩
      intro m hm n hn
      rw [List.mem_singleton.1 hn]
      have := h.toolCalls_lt m hm
      simp only [ToolCallRow.stamp, Prod.Lex.toLex_le_toLex]
      omega
    · intro m hm
      rcases List.mem_append.1 hm with hm | hm
      · have := h.toolCalls_lt m hm
        simp only
        omega
      · rw [List.mem_singleton.1 hm]
        simp
    · intro m hm
      rcases List.mem_append.1 hm with hm | hm
      · exact h.toolCalls_conversation m hm
      · rw [List.mem_singleton.1 hm]
        exact hconv
    · intro a hab
      refine restrict_append_toolCall ?_
      rw [← Bool.not_eq_true]
      intro ha
      exact hab (h.owner hb ha)
  · exact .refl h b

theorem softDelete_moves (h : s.Wf) (elapsed : Nat) (b : Account) (conversationId : Nat) :
    s.Moves b (s.softDelete elapsed b conversationId) := by
  refine rewrite_moves h (retire_rewrites b conversationId _) (retire_extends b conversationId _) b ?_ elapsed
  intro c hc hne
  by_contra hno
  refine hne ?_
  unfold Store.retire
  rw [if_neg]
  rintro ⟨hcluster, hlogin, -⟩
  exact hno (by simp [owns, hcluster, hlogin])

/-! ### Steps and runs -/

theorem attach_wf {sys : System J} (h : sys.Wf) {a : Account} (chat : Nat) {id : Option Nat}
    (hid : ∀ i ∈ id, sys.store.ownsId a i = true) : (sys.attach a chat id).Wf := by
  refine ⟨h.store, ?_⟩
  intro b n i hi
  simp only [System.attach, Function.update_apply] at hi
  by_cases hb : b = a
  · subst hb
    simp only [if_true, Function.update_apply] at hi
    by_cases hn : n = chat
    · simp only [hn, if_true] at hi
      exact hid i hi
    · simp only [hn, if_false] at hi
      exact h.chats b n i hi
  · simp only [hb, if_false] at hi
    exact h.chats b n i hi

/-- A store call between two systems. -/
theorem moves_wf {sys : System J} (h : sys.Wf) {b : Account} {s' : Store J} (hm : sys.store.Moves b s') :
    System.Wf { sys with store := s' } :=
  ⟨hm.wf, fun a chat id hid => hm.owned a id (h.chats a chat id hid)⟩

/-- What a step of a user does. -/
theorem next_spec {sys : System J} (h : sys.Wf) (st : Step J) :
    (next sys st).Wf ∧ sys.store.Moves st.account (next sys st).store := by
  obtain ⟨b, action, elapsed⟩ := st
  cases action with
  | start chat message conversationId modelConfigId =>
    cases conversationId with
    | some id =>
      cases hget : sys.store.getConversation b id false with
      | none =>
        simp only [next, hget]
        exact ⟨h, .refl h.store _⟩
      | some row =>
        simp only [next, hget]
        refine ⟨attach_wf h chat ?_, .refl h.store _⟩
        rintro i ⟨⟩
        obtain ⟨c, hc, rfl⟩ := Option.map_eq_some_iff.1 hget
        exact ownsId_of_mem (List.mem_of_find?_eq_some hc) (visible_owns (List.find?_some hc))
    | none =>
      have hm := createConversation_moves h.store elapsed b (Chat.conversationTitle message) (some modelConfigId)
      refine ⟨attach_wf (moves_wf h hm) chat ?_, hm⟩
      rintro i ⟨⟩
      refine ownsId_of_mem (c := ⟨sys.store.nextConversation, b.cluster, b.login,
        Chat.conversationTitle message, some modelConfigId, sys.store.clock + elapsed, sys.store.clock + elapsed,
        none, none⟩) ?_ ?_
      · simp [Store.createConversation]
      · simp [owns]
  | message chat role content modelConfigId metadata =>
    cases hchat : sys.chats b chat with
    | none =>
      simp only [next, hchat]
      exact ⟨h, .refl h.store _⟩
    | some id =>
      simp only [next, hchat]
      have hm := addMessage_moves h.store (h.chats _ _ _ hchat) elapsed role content modelConfigId metadata
      exact ⟨moves_wf h hm, hm⟩
  | tool chat call =>
    cases hchat : sys.chats b chat with
    | none =>
      simp only [next, hchat]
      exact ⟨h, .refl h.store _⟩
    | some id =>
      simp only [next, hchat]
      have hm := recordToolCall_moves h.store (h.chats _ _ _ hchat) elapsed call
      exact ⟨moves_wf h hm, hm⟩
  | close chat => exact ⟨attach_wf h chat (by simp), .refl h.store _⟩
  | delete conversationId =>
    have hm := softDelete_moves h.store elapsed b conversationId
    exact ⟨moves_wf h hm, hm⟩

theorem empty_wf : (System.empty : System J).Wf := by
  refine ⟨⟨?_, ?_, ?_, ?_, ?_, ?_, ?_, ?_⟩, ?_⟩ <;> simp [System.empty]

theorem run_append (before after : List (Step J)) (sys : System J) :
    run (before ++ after) sys = run after (run before sys) := List.foldl_append

theorem run_wf : ∀ {steps : List (Step J)} {sys : System J}, sys.Wf → (run steps sys).Wf
  | [], _, h => h
  | st :: steps, sys, h => by
    have hrest : (run steps (next sys st)).Wf := run_wf (next_spec h st).1
    exact hrest

theorem run_extends : ∀ (steps : List (Step J)) {sys : System J}, sys.Wf →
    sys.store.toTables.Extends (run steps sys).store.toTables
  | [], sys, _ => .refl _
  | st :: steps, sys, h => by
    obtain ⟨hwf, hm⟩ := next_spec h st
    exact hm.extend.trans (run_extends steps hwf)

theorem run_restrict {a : Account} : ∀ {steps : List (Step J)} {sys : System J}, sys.Wf →
    (∀ st ∈ steps, st.account ≠ a) → (run steps sys).store.restrict a = sys.store.restrict a
  | [], _, _, _ => rfl
  | st :: steps, sys, h, hother => by
    obtain ⟨hwf, hm⟩ := next_spec h st
    have hrest : (run steps (next sys st)).store.restrict a = (next sys st).store.restrict a :=
      run_restrict hwf fun st' hst' => hother st' (List.mem_cons_of_mem _ hst')
    exact hrest.trans (hm.others a (hother st List.mem_cons_self))

/-- **Users are isolated.** However the chats and the deletions of other users are interleaved, a
user reads what was there before: the same list, the same details, the same context. -/
theorem isolation (before after : List (Step J)) {a : Account} (hother : ∀ st ∈ after, st.account ≠ a) :
    view (run (before ++ after) System.empty).store.toTables a = view (run before System.empty).store.toTables a := by
  have hwf : (run before (System.empty : System J)).Wf := run_wf empty_wf
  rw [run_append, ← view_restrict, run_restrict hwf hother, view_restrict]

/-! ## The audit -/

theorem take_prefix {α : Type} {l m : List α} (h : l <+: m) (n : Nat) : l.take n <+: m.take n := by
  obtain ⟨r, rfl⟩ := h
  rw [List.take_append]
  exact List.prefix_append _ _

/-- The audit reads a conversation of the cluster whether it is deleted or not. -/
theorem joined_audit {t : Tables J} {cluster : Str} {c : ConversationRow} (hc : c ∈ t.conversations)
    (hcluster : c.cluster = cluster) (id : Nat) : t.joined cluster none c.id true id = (id == c.id) := by
  rw [Bool.eq_iff_iff]
  simp only [Tables.joined, Tables.visible, List.any_eq_true, Bool.and_eq_true, beq_iff_eq, Option.all_none,
    Bool.true_or, and_true]
  constructor
  · rintro ⟨d, -, hid, -, hdid⟩
    exact hid.symm.trans hdid
  · intro hid
    exact ⟨c, hc, hid.symm, hcluster, rfl⟩

/-- Messages are stored in the order they are read in. -/
theorem listMessages_audit (h : s.Wf) {cluster : Str} {c : ConversationRow} (hc : c ∈ s.conversations)
    (hcluster : c.cluster = cluster) (limit : Nat) :
    s.listMessages cluster none c.id limit true = (s.messages.filter fun m => m.conversationId == c.id).take limit := by
  simp only [Tables.listMessages, joined_audit hc hcluster]
  rw [List.Pairwise.insertionSort_eq (h.messages.filter _)]

theorem listToolCalls_audit (h : s.Wf) {cluster : Str} {c : ConversationRow} (hc : c ∈ s.conversations)
    (hcluster : c.cluster = cluster) (limit : Nat) :
    s.listToolCalls cluster none c.id limit true =
      (s.toolCalls.filter fun m => m.conversationId == c.id).take limit := by
  simp only [Tables.listToolCalls, joined_audit hc hcluster]
  rw [List.Pairwise.insertionSort_eq (h.toolCalls.filter _)]

/-- The audit finds a conversation by its id. -/
theorem anyConversationDetail_of_mem (h : s.Wf) {c : ConversationRow} (hc : c ∈ s.conversations) :
    anyConversationDetail s.toTables c.cluster c.id = some ⟨c,
      (s.messages.filter fun m => m.conversationId == c.id).take 100,
      (s.toolCalls.filter fun m => m.conversationId == c.id).take 200⟩ := by
  have hvis : Tables.visible c.cluster none c.id true c = true := by simp [Tables.visible]
  have hfind : s.conversations.find? (Tables.visible c.cluster none c.id true) = some c := by
    cases hf : s.conversations.find? (Tables.visible c.cluster none c.id true) with
    | none => exact absurd hvis (by simpa using List.find?_eq_none.1 hf c hc)
    | some d =>
      have hd := List.find?_some hf
      simp only [Tables.visible, Bool.and_eq_true, beq_iff_eq] at hd
      rw [h.unique (List.mem_of_find?_eq_some hf) hc hd.1.2]
  unfold anyConversationDetail Tables.getConversationById
  rw [hfind]
  simp only [Option.map_some, listMessages_audit h hc rfl, listToolCalls_audit h hc rfl]

theorem anyConversationDetail_mem {t : Tables J} {cluster : Str} {id : Nat} {d : Detail J}
    (h : anyConversationDetail t cluster id = some d) :
    d.conversation ∈ t.conversations ∧ d.conversation.cluster = cluster ∧ d.conversation.id = id := by
  obtain ⟨row, hrow, rfl⟩ := Option.map_eq_some_iff.1 h
  obtain ⟨c, hc, rfl⟩ := Option.map_eq_some_iff.1 hrow
  have hvis := List.find?_some hc
  simp only [Tables.visible, Bool.and_eq_true, beq_iff_eq] at hvis
  exact ⟨List.mem_of_find?_eq_some hc, hvis.1.1.1, hvis.1.2⟩

/-- What the audit shows after further steps extends what it shows now. -/
theorem anyConversationDetail_run {sys : System J} (h : sys.Wf) (steps : List (Step J)) {cluster : Str} {id : Nat}
    {d : Detail J} (hd : anyConversationDetail sys.store.toTables cluster id = some d) :
    ∃ d', anyConversationDetail (run steps sys).store.toTables cluster id = some d' ∧
      RowExtends d.conversation d'.conversation ∧ d.messages <+: d'.messages ∧ d.toolCalls <+: d'.toolCalls := by
  have hext := run_extends steps h
  obtain ⟨hc, rfl, rfl⟩ := anyConversationDetail_mem hd
  rw [anyConversationDetail_of_mem h.store hc, Option.some.injEq] at hd
  obtain ⟨c', hc', hrow⟩ := hext.conversations _ hc
  have hwf : (run steps sys).Wf := run_wf h
  have hd' := anyConversationDetail_of_mem hwf.store hc'
  rw [hrow.id, hrow.cluster] at hd'
  refine ⟨_, hd', hrow, ?_, ?_⟩
  · have hm : d.messages = _ := (congrArg Detail.messages hd).symm
    rw [hm]
    exact take_prefix (hext.messages.filter _) 100
  · have hm : d.toolCalls = _ := (congrArg Detail.toolCalls hd).symm
    rw [hm]
    exact take_prefix (hext.toolCalls.filter _) 200

/-- **A deleted conversation stays deleted**, also when a chat of it is still streaming: no user
reads it again, and the audit still has it with the time and the user of the deletion. -/
theorem deleted_stays (before after : List (Step J)) {c : ConversationRow} {now : Nat}
    (hc : c ∈ (run before (System.empty : System J)).store.conversations) (hdeleted : c.deletedAt = some now) :
    let t := (run (before ++ after) (System.empty : System J)).store.toTables
    (∀ a, conversationDetail t a c.id = none ∧ (∀ limit, contextMessages t a limit c.id = []) ∧
      ∀ row ∈ t.listConversations a 100 false, row.1.id ≠ c.id) ∧
    ∃ d, anyConversationDetail t c.cluster c.id = some d ∧ d.conversation.deletedAt = some now ∧
      d.conversation.deletedBy = c.deletedBy := by
  have hwf : (run before (System.empty : System J)).Wf := run_wf empty_wf
  have hwf' : (run (before ++ after) (System.empty : System J)).Wf := run_wf empty_wf
  intro t
  have hshown := anyConversationDetail_of_mem hwf.store hc
  obtain ⟨d', hd', hrow, -, -⟩ := anyConversationDetail_run hwf after hshown
  rw [← run_append] at hd'
  obtain ⟨hdel, hby⟩ := hrow.deleted now hdeleted
  obtain ⟨hmem, -, hid⟩ := anyConversationDetail_mem hd'
  -- the row of the id is the deleted one
  have hrows : ∀ e ∈ t.conversations, e.id = c.id → e.deletedAt.isNone = false := by
    intro e he heid
    rw [hwf'.store.unique he hmem (heid.trans hid.symm), hdel]
    rfl
  have hvisible : ∀ (a : Account) (e : ConversationRow), e ∈ t.conversations →
      Tables.visible a.cluster (some a.login) c.id false e = false := by
    intro a e he
    rw [← Bool.not_eq_true]
    intro hv
    simp only [Tables.visible, Bool.and_eq_true, beq_iff_eq, Bool.false_or] at hv
    rw [hrows e he hv.1.2] at hv
    exact absurd hv.2 (by simp)
  refine ⟨?_, d', hd', hdel, hby⟩
  intro a
  refine ⟨?_, ?_, ?_⟩
  · have hnone : t.conversations.find? (Tables.visible a.cluster (some a.login) c.id false) = none := by
      rw [List.find?_eq_none]
      intro e he
      simp [hvisible a e he]
    simp [conversationDetail, Tables.getConversation, hnone]
  · intro limit
    have hno : ∀ id, t.joined a.cluster (some a.login) c.id false id = false := by
      intro id
      rw [Tables.joined, List.any_eq_false]
      intro e he
      simp [hvisible a e he]
    simp [contextMessages, Tables.listMessages, hno]
  · rintro ⟨e, last⟩ he hid'
    simp only [Tables.listConversations, Tables.listed, List.mem_map, Prod.mk.injEq] at he
    obtain ⟨e', he', rfl, -⟩ := he
    have hmem' := (List.perm_insertionSort _ _).mem_iff.1 (List.mem_of_mem_take he')
    rw [List.mem_filter, Bool.and_eq_true, Bool.false_or] at hmem'
    rw [hrows e' hmem'.1 hid'] at hmem'
    exact absurd hmem'.2.2 (by simp)

/-! ### Two users -/

def alice : Account := ⟨"hpc", "alice"⟩
def bob : Account := ⟨"hpc", "bob"⟩

/-- Alice asks and deletes the conversation while it streams; the answer still comes. -/
def aliceSteps : List (Step Unit) := [
  ⟨alice, .start 0 "How many nodes are down?" none 1, 1⟩,
  ⟨alice, .message 0 "user" "How many nodes are down?" (some 1) (), 1⟩,
  ⟨alice, .delete 1, 1⟩,
  ⟨alice, .message 0 "assistant" "Two." (some 1) (), 1⟩]

/-- Bob asks, tries to go on with Alice's conversation and to delete it. -/
def bobSteps : List (Step Unit) := [
  ⟨bob, .start 0 "Jobs?" none 1, 1⟩,
  ⟨bob, .message 0 "user" "Jobs?" (some 1) (), 1⟩,
  ⟨bob, .start 1 "Go on" (some 1) 1, 1⟩,
  ⟨bob, .message 1 "user" "Go on" (some 1) (), 1⟩,
  ⟨bob, .delete 1, 1⟩]

theorem isolation_alice : view (run (aliceSteps.take 2 ++ bobSteps) System.empty).store.toTables alice =
    view (run (aliceSteps.take 2) System.empty).store.toTables alice := by
  refine isolation (aliceSteps.take 2) bobSteps ?_
  intro st hst
  simp only [bobSteps, List.mem_cons, List.not_mem_nil, or_false] at hst
  rcases hst with rfl | rfl | rfl | rfl | rfl <;> decide

/-- Alice's conversation, before and after she deletes it. -/
def asked : ConversationRow := ⟨1, "hpc", "alice", Chat.conversationTitle "How many nodes are down?",
  some 1, 1, 2, none, none⟩
def retired : ConversationRow := { asked with updatedAt := 3, deletedAt := some 3, deletedBy := some "alice" }

theorem deleted_stays_alice :
    let t := (run (aliceSteps.take 3 ++ (aliceSteps.drop 3 ++ bobSteps)) System.empty).store.toTables
    (∀ a, conversationDetail t a 1 = none ∧ (∀ limit, contextMessages t a limit 1 = []) ∧
      ∀ row ∈ t.listConversations a 100 false, row.1.id ≠ 1) ∧
    ∃ d, anyConversationDetail t "hpc" 1 = some d ∧ d.conversation.deletedAt = some 3 ∧
      d.conversation.deletedBy = some "alice" :=
  @deleted_stays Unit (aliceSteps.take 3) (aliceSteps.drop 3 ++ bobSteps) retired 3 (List.mem_singleton.2 rfl) rfl

end SlurmWeb.Conversations
