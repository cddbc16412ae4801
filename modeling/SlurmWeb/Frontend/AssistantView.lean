import SlurmWeb.Chat.StreamChat

/-!
# The assistant's page while a chat streams (frontend/src/views/AssistantView.vue)

The page keeps the answer so far, the tool runs and the last error, and changes them with every event of
the stream. A run that has started is looked for when its call ends, by tool and interface.

| here | there |
| --- | --- |
| `Page.submitted` | `submitMessage` (:418) before the request |
| `Page.handle` | the handlers of `submitMessage` (:455-475) |
| `addToolRun` | `addToolRun` (:350) |

Each event comes with the time of its arrival and the milliseconds its tool took. The copies
`{ ...value }` are a parameter. `created_at` and `source`, which are the same for all runs of a stream,
are left out.

* `answer_shown` — what is on the page when the stream has ended is what was stored.
* `runs_settled_iff` — which calls leave a run on the page that never ends, one each.
-/

namespace SlurmWeb.AssistantView

open Strings Py Assistant Chat

variable {F : Type}

/-! ## Tool runs -/

inductive ToolStatus
  | running
  | ok
  | error
deriving DecidableEq

structure ToolRun (F : Type) where
  id : Nat
  toolName : Str
  interfaceKey : Option Str
  arguments : Value F
  resultSummary : Option Str
  error : Option Str
  durationMs : Option Nat
  statusCode : Option Nat
  status : ToolStatus

/-- `AIChatToolEvent` -/
structure ToolEvent (F : Type) where
  toolName : Str
  interfaceKey : Option Str
  arguments : Value F
  durationMs : Option Nat
  statusCode : Option Nat
  resultSummary : Option Str
  error : Option Str

/-- `event.status_code >= 400 ? 'error' : 'ok'` -/
def statusOf : Option Nat → ToolStatus
  | some statusCode => if 400 ≤ statusCode then .error else .ok
  | none => .ok

/-- `value ?? default` -/
def orElse (value default : Value F) : Value F :=
  match value with
  | .none => default
  | value => value

/-- The last element that satisfies `p` is changed, if there is one. -/
def updateLast {α : Type} (p : α → Bool) (f : α → α) : List α → Option (List α)
  | [] => none
  | x :: xs =>
    match updateLast p f xs with
    | some ys => some (x :: ys)
    | none => if p x then some (f x :: xs) else none

section

-- `{ ...value }`
variable (spread : Value F → Value F)

def pushed (now : Nat) (event : ToolEvent F) (status : ToolStatus) (runs : List (ToolRun F)) : List (ToolRun F) :=
  runs ++ [{ id := now + runs.length, toolName := event.toolName, interfaceKey := event.interfaceKey
             arguments := spread (orElse event.arguments (.dict [])), resultSummary := event.resultSummary
             error := event.error, durationMs := event.durationMs, statusCode := event.statusCode, status }]

/-- The run an event may end. -/
def awaits (event : ToolEvent F) (run : ToolRun F) : Bool :=
  run.toolName == event.toolName && run.interfaceKey == event.interfaceKey && run.status == .running

def ended (event : ToolEvent F) (run : ToolRun F) : ToolRun F :=
  { run with
    interfaceKey := event.interfaceKey.or run.interfaceKey
    arguments := spread (orElse event.arguments (orElse run.arguments (.dict [])))
    resultSummary := event.resultSummary
    error := event.error
    durationMs := event.durationMs
    statusCode := event.statusCode
    status := statusOf event.statusCode }

/-- `addToolRun` (:350) -/
def addToolRun (now : Nat) (event : ToolEvent F) (status : ToolStatus) (runs : List (ToolRun F)) : List (ToolRun F) :=
  if status = .running then pushed spread now event status runs
  else match updateLast (awaits event) (ended spread event) runs with
    | some runs => runs
    | none => pushed spread now event status runs

/-! ## The page -/

structure Page (F : Type) where
  selectedConversationId : Option Nat
  selectedModelId : Option Nat
  streamingAssistantMessage : Str
  toolRuns : List (ToolRun F)
  sendError : Option Str

/-- `submitMessage` (:418) up to the request. -/
def Page.submitted (conversationId modelId : Option Nat) : Page F := ⟨conversationId, modelId, [], [], none⟩

/-- An event, when it arrived and how long its tool took. -/
structure Arrival (F : Type) where
  now : Nat
  durationMs : Nat
  event : ChatEvent F

/-- The handlers of `submitMessage` (:455). -/
def Page.handle (page : Page F) (arrival : Arrival F) : Page F :=
  match arrival.event with
  | .conversation conversationId _ _ => { page with selectedConversationId := some conversationId }
  | .content delta => { page with streamingAssistantMessage := page.streamingAssistantMessage ++ delta }
  | .toolStart toolName interfaceKey arguments =>
    let event := ⟨toolName, interfaceKey, arguments, none, none, none, none⟩
    { page with toolRuns := addToolRun spread arrival.now event .running page.toolRuns }
  | .toolEnd toolName interfaceKey arguments statusCode resultSummary error =>
    let durationMs := if error.isNone then some arrival.durationMs else none
    let event := ⟨toolName, interfaceKey, arguments, durationMs, some statusCode, resultSummary, error⟩
    { page with toolRuns := addToolRun spread arrival.now event (statusOf (some statusCode)) page.toolRuns }
  | .complete conversationId _ modelConfigId =>
    { page with
      selectedConversationId := some conversationId, selectedModelId := modelConfigId.or page.selectedModelId }
  | .error message => { page with sendError := some message }
  | .done _ => page

def Page.handleAll (page : Page F) (arrivals : List (Arrival F)) : Page F := arrivals.foldl (Page.handle spread) page

end

/-! ## Ends without their starts -/

section

variable {α : Type} {p : α → Bool} {f : α → α}

theorem updateLast_none : ∀ {l : List α}, (∀ x ∈ l, p x = false) → updateLast p f l = none
  | [], _ => rfl
  | x :: xs, h => by
    obtain ⟨hx, hxs⟩ := List.forall_mem_cons.1 h
    rw [updateLast, updateLast_none hxs]
    exact if_neg (by simp [hx])

/-- The last element is the first one looked at. -/
theorem updateLast_concat {x : α} (hx : p x = true) : ∀ l : List α, updateLast p f (l ++ [x]) = some (l ++ [f x])
  | [] => by rw [List.nil_append, updateLast]; exact if_pos hx
  | y :: l => by
    rw [List.cons_append, updateLast, updateLast_concat hx l]
    rfl

end

def isRunning (run : ToolRun F) : Bool := run.status == .running

/-- How many runs have not ended. -/
def openRuns (runs : List (ToolRun F)) : Nat := runs.countP isRunning

theorem statusOf_ne (statusCode : Option Nat) : statusOf statusCode ≠ .running := by
  unfold statusOf
  split
  next => split <;> simp
  next => simp

/-! ## Calls -/

/-- The events of calls, each started and ended, with a relation between the interface of its start and
that of its end. -/
inductive Calls (R : Str → Option Str → Option Str → Prop) : List (ChatEvent F) → Prop
  | nil : Calls R []
  | cons {toolName : Str} {key key' : Option Str} {arguments arguments' : Value F} {statusCode : Nat}
      {resultSummary error : Option Str} {rest : List (ChatEvent F)} : R toolName key key' → Calls R rest →
      Calls R (.toolStart toolName key arguments ::
        .toolEnd toolName key' arguments' statusCode resultSummary error :: rest)

theorem Calls.append {R : Str → Option Str → Option Str → Prop} {a b : List (ChatEvent F)} (ha : Calls R a)
    (hb : Calls R b) : Calls R (a ++ b) := by
  induction ha with
  | nil => exact hb
  | cons hkeys _ ih => exact .cons hkeys ih

/-- A start of a call that does not agree. -/
def leavesOpen (A : Str → Option Str → Prop) [∀ toolName key, Decidable (A toolName key)] : ChatEvent F → Bool
  | .toolStart toolName key _ => !decide (A toolName key)
  | _ => false

/-- The runs that are open are of calls that do not agree. -/
def OpenApart (A : Str → Option Str → Prop) (runs : List (ToolRun F)) : Prop :=
  ∀ run ∈ runs, isRunning run = true → ¬ A run.toolName run.interfaceKey

section

variable (spread : Value F → Value F) {A : Str → Option Str → Prop} [∀ toolName key, Decidable (A toolName key)]

/-- A call that agrees leaves no run open; any other leaves its own, as its end names an interface under which no
run is open. -/
theorem openRuns_call {page : Page F} (hopen : OpenApart A page.toolRuns) (a b : Arrival F) {toolName : Str}
    {key key' : Option Str}
    {arguments arguments' : Value F} {statusCode : Nat} {resultSummary error : Option Str}
    (ha : a.event = .toolStart toolName key arguments)
    (hb : b.event = .toolEnd toolName key' arguments' statusCode resultSummary error)
    (hend : A toolName key') (hagree : A toolName key → key' = key) :
    OpenApart A ((page.handle spread a).handle spread b).toolRuns ∧
      openRuns ((page.handle spread a).handle spread b).toolRuns =
        openRuns page.toolRuns + (if A toolName key then 0 else 1) := by
  obtain ⟨started, hstarted, hname, hkey, hrunning⟩ :
      ∃ started, (page.handle spread a).toolRuns = page.toolRuns ++ [started] ∧
      started.toolName = toolName ∧ started.interfaceKey = key ∧ started.status = .running := by
    simp only [Page.handle, ha, addToolRun, if_true, pushed]
    exact ⟨_, rfl, rfl, rfl, rfl⟩
  let event : ToolEvent F := ⟨toolName, key', arguments',
    if error.isNone then some b.durationMs else none, some statusCode,
    resultSummary, error⟩
  have hstatus := statusOf_ne event.statusCode
  have hruns : ((page.handle spread a).handle spread b).toolRuns =
      addToolRun spread b.now event (statusOf event.statusCode) (page.toolRuns ++ [started]) := by
    rw [← hstarted]
    simp only [Page.handle, hb]
    rfl
  rw [hruns, addToolRun, if_neg hstatus]
  by_cases hA : A toolName key
  · have hawaits : awaits event started = true := by simp [awaits, event, hname, hkey, hrunning, hagree hA]
    rw [updateLast_concat hawaits, if_pos hA]
    have hclosed : isRunning (ended spread event started) = false := by simp [isRunning, ended, hstatus]
    refine ⟨fun run hrun hopen' => ?_, by simp [openRuns, List.countP_append, hclosed]⟩
    rcases List.mem_append.1 hrun with hrun | hrun
    · exact hopen run hrun hopen'
    · rw [List.mem_singleton.1 hrun, hclosed] at hopen'
      cases hopen'
  · have hnone : ∀ run ∈ page.toolRuns ++ [started], awaits event run = false := by
      intro run hrun
      by_contra hawaits
      rw [Bool.not_eq_false, awaits, Bool.and_eq_true, Bool.and_eq_true, beq_iff_eq, beq_iff_eq] at hawaits
      obtain ⟨⟨hname', hkey'⟩, hrunning'⟩ := hawaits
      rcases List.mem_append.1 hrun with hrun | hrun
      · refine hopen run hrun hrunning' ?_
        rw [hname', hkey']
        exact hend
      · rw [List.mem_singleton.1 hrun, hkey] at hkey'
        exact hA (hkey' ▸ hend)
    rw [updateLast_none hnone, if_neg hA]
    refine ⟨fun run hrun hopen' => ?_, ?_⟩
    · rw [pushed, List.mem_append, List.mem_append] at hrun
      rcases hrun with (hrun | hrun) | hrun
      · exact hopen run hrun hopen'
      · rw [List.mem_singleton.1 hrun, hname, hkey]
        exact hA
      · rw [List.mem_singleton.1 hrun] at hopen'
        simp [isRunning, hstatus] at hopen'
    · simp [pushed, openRuns, isRunning, hrunning, hstatus]

/-- **Every call that does not agree leaves a run open.** -/
theorem openRuns_calls {events : List (ChatEvent F)}
    (h : Calls (fun toolName key key' => A toolName key' ∧ (A toolName key → key' = key)) events) :
    ∀ {arrivals : List (Arrival F)}, arrivals.map Arrival.event = events → ∀ {page : Page F},
      OpenApart A page.toolRuns →
      openRuns (page.handleAll spread arrivals).toolRuns = openRuns page.toolRuns + events.countP (leavesOpen A) := by
  induction h with
  | nil =>
    intro arrivals hmap page _
    rw [List.map_eq_nil_iff] at hmap
    subst hmap
    rfl
  | @cons toolName key key' arguments arguments' statusCode resultSummary error rest hkeys hrest ih =>
    intro arrivals hmap page hopen
    obtain ⟨a, arrivals, rfl, ha, hmap⟩ := List.map_eq_cons_iff.1 hmap
    obtain ⟨b, arrivals, rfl, hb, hmap⟩ := List.map_eq_cons_iff.1 hmap
    obtain ⟨hopen', hcount⟩ := openRuns_call spread hopen a b ha hb hkeys.1 hkeys.2
    refine (ih hmap hopen').trans ?_
    rw [hcount, List.countP_cons, List.countP_cons]
    by_cases hA : A toolName key
    · simp [leavesOpen, hA]
    · simp only [leavesOpen, hA, decide_false, Bool.not_false, Bool.false_eq_true, if_true, if_false]
      omega

/-! ## Other events -/

/-- What the page shows besides the tool runs. -/
def Page.shown (page : Page F) : Option Nat × Str × Option Str :=
  (page.selectedConversationId, page.streamingAssistantMessage, page.sendError)

def isTool : ChatEvent F → Bool
  | .toolStart .. | .toolEnd .. => true
  | _ => false

theorem handleAll_append (page : Page F) (a b : List (Arrival F)) :
    page.handleAll spread (a ++ b) = (page.handleAll spread a).handleAll spread b := List.foldl_append

/-- Tool events change the tool runs only. -/
theorem shown_of_tools : ∀ {arrivals : List (Arrival F)}, (∀ a ∈ arrivals, isTool a.event = true) → ∀ page : Page F,
    (page.handleAll spread arrivals).shown = page.shown
  | [], _, _ => rfl
  | a :: arrivals, h, page => by
    have hstep : (page.handle spread a).shown = page.shown := by
      have ha := h a List.mem_cons_self
      unfold Page.handle
      split <;> first | rfl | (rename_i heq; rw [heq] at ha; cases ha)
    exact (shown_of_tools (fun b hb => h b (List.mem_cons_of_mem _ hb)) (page.handle spread a)).trans hstep

/-- Other events leave the tool runs alone. -/
theorem runs_of_others : ∀ {arrivals : List (Arrival F)}, (∀ a ∈ arrivals, isTool a.event = false) → ∀ page : Page F,
    (page.handleAll spread arrivals).toolRuns = page.toolRuns
  | [], _, _ => rfl
  | a :: arrivals, h, page => by
    have hstep : (page.handle spread a).toolRuns = page.toolRuns := by
      have ha := h a List.mem_cons_self
      unfold Page.handle
      split <;> first | rfl | (rename_i heq; rw [heq] at ha; cases ha)
    exact (runs_of_others (fun b hb => h b (List.mem_cons_of_mem _ hb)) (page.handle spread a)).trans hstep

/-- The deltas add up. -/
theorem shown_of_contents : ∀ {deltas : List Str} {arrivals : List (Arrival F)},
    arrivals.map Arrival.event = deltas.map .content → ∀ page : Page F, (page.handleAll spread arrivals).shown =
      (page.selectedConversationId, page.streamingAssistantMessage ++ deltas.flatten, page.sendError)
  | [], arrivals, hmap, page => by
    obtain rfl := List.map_eq_nil_iff.1 hmap
    rw [List.flatten_nil, List.append_nil]
    rfl
  | delta :: deltas, arrivals, hmap, page => by
    obtain ⟨a, arrivals, rfl, ha, hmap⟩ := List.map_eq_cons_iff.1 hmap
    refine (shown_of_contents hmap (page.handle spread a)).trans ?_
    simp [Page.handle, ha]

end

/-! ## What the page shows in the end -/

theorem toolPairs_tools {events : List (ChatEvent F)} (h : ToolPairs events) : ∀ e ∈ events, isTool e = true := by
  induction h with
  | nil => exact fun _ he => by cases he
  | cons _ ih =>
    intro e he
    rcases List.mem_cons.1 he with rfl | he
    · rfl
    · rcases List.mem_cons.1 he with rfl | he
      · rfl
      · exact ih e he

theorem roundsEvents_tools [Python F] {chat : ChatRun F} {last : Nat} {events : List (ChatEvent F)}
    {answer : Except Str (Option Str)} (h : ChatRun.RoundsEvents chat last events answer) :
      ∀ e ∈ events, isTool e = true := by
  cases h with
  | pairs hpairs => exact toolPairs_tools hpairs
  | escaped hpairs hescapes =>
    obtain ⟨toolName, arguments, err, rfl, -⟩ := hescapes
    intro e he
    rcases List.mem_append.1 he with he | he
    · exact toolPairs_tools hpairs e he
    · rw [List.mem_singleton.1 he]
      rfl

/-- How a chat ends: with its answer, or with an error and nothing stored. -/
theorem ending_cases (chat : ChatRun F) (start : ChatStart) (answer : Except Str (Option Str)) :
    (∃ (deltas : List Str) (message : Message) (modelConfigId : Option Nat), chat.ending start answer =
      (deltas.map .content ++
        [.complete start.conversation.id message.id modelConfigId], [message]) ∧ deltas.flatten = message.content) ∨
      ∃ text, chat.ending start answer = ([.error text], []) := by
  cases answer with
  | error text => exact .inr ⟨text, rfl⟩
  | ok found =>
    rw [ChatRun.ending, ChatRun.conclude]
    cases chat.tables with
    | error text => exact .inr ⟨text, rfl⟩
    | ok tables =>
      dsimp only
      split
      next => exact .inr ⟨_, rfl⟩
      next s' message hadd =>
        refine .inl ⟨_, message, _, rfl, ?_⟩
        rw [chunkText_flatten chat.chunkSize_pos, (AIConversationStore.addMessage_row hadd).2.1]

/-- The arrivals of a stream, by what they report. -/
theorem arrivals_split [Python F] {chat : ChatRun F} {start : ChatStart} {arrivals : List (Arrival F)}
    (h : arrivals.map Arrival.event = (chat.generate start).events) : ∃ opening planned ending closing,
      arrivals = opening :: (planned ++ ending ++ [closing]) ∧
      opening.event = .conversation start.conversation.id start.userMessage.id start.userMessage.modelConfigId ∧
      planned.map Arrival.event = (chat.rounds chat.maxRounds 0 start.workingMessages).events ∧
      ending.map Arrival.event =
        (chat.ending start (chat.rounds chat.maxRounds 0 start.workingMessages).answer).1 ∧
      closing.event = .done start.conversation.id := by
  rw [ChatRun.generate] at h
  obtain ⟨opening, rest, rfl, hopening, hmap⟩ := List.map_eq_cons_iff.1 h
  obtain ⟨front, last, rfl, hmap, hlast⟩ := List.map_eq_append_iff.1 hmap
  obtain ⟨planned, ending, rfl, hplanned, hending⟩ := List.map_eq_append_iff.1 hmap
  obtain ⟨closing, done, rfl, hclosing, hdone⟩ := List.map_eq_cons_iff.1 hlast
  obtain rfl := List.map_eq_nil_iff.1 hdone
  exact ⟨opening, planned, ending, closing, rfl, hopening, hplanned, hending, hclosing⟩

theorem generate_stored [Python F] (chat : ChatRun F) (start : ChatStart) : (chat.generate start).stored =
    (chat.ending start (chat.rounds chat.maxRounds 0 start.workingMessages).answer).2 := rfl

section Registry

variable [Python F]

/-- A result names the interface that was asked for. -/
theorem runInterface_key (ctx : ToolContext F) {interfaceKey : Str} {arguments : Arguments F}
    {result : AIAgentInterfaceResult F}
    (h : (runInterface ctx interfaceKey arguments).1 = .ok result) : result.interfaceKey = interfaceKey := by
  cases hi : Interface.ofKey interfaceKey with
  | none =>
    rw [runInterface, Assistant.execute, hi] at h
    cases h
  | some i =>
    rw [runInterface_some ctx hi] at h
    exact ((handler_key ctx.app ctx.user arguments i).handle [] result h).trans (ofKey_key hi)

/-- The interface a call resolves to, if any. -/
def resolvedKey (toolName : Str) (arguments : Arguments F) : Option Str :=
  match resolveToolCall toolName arguments with
  | .ok call => orNone call.interfaceKey
  | .error _ => none

theorem executeTool_result_key (ctx : ToolContext F) {toolName : Str} {arguments : Arguments F} {result : ToolResult F}
    (h : (executeTool ctx toolName arguments []).1 = .ok result) :
      some result.interfaceKey = resolvedKey toolName arguments := by
  unfold executeTool at h
  unfold resolvedKey
  cases hcall : resolveToolCall toolName arguments with
  | error err =>
    rw [hcall] at h
    cases h
  | ok call =>
    rw [hcall] at h
    dsimp only at h ⊢
    split at h
    next => cases h
    next hkey =>
      rw [orNone, if_neg hkey]
      cases hrun : (runInterface ctx call.interfaceKey call.input).1 with
      | ok answer =>
        rw [hrun] at h
        cases h
        exact congrArg some (runInterface_key ctx hrun)
      | error err =>
        rw [hrun] at h
        cases err <;> cases h

theorem executeTool_error_key {ctx : ToolContext F} {toolName : Str} {arguments : Arguments F} {err : ToolError}
    (hbehaves : Behaves ctx toolName arguments) (h : (executeTool ctx toolName arguments []).1 = .error err) :
    (errorInterfaceKey err).bind orNone = resolvedKey toolName arguments := by
  unfold executeTool at h
  unfold resolvedKey
  cases hcall : resolveToolCall toolName arguments with
  | error e =>
    rw [hcall] at h
    obtain ⟨message, rfl⟩ := resolveToolCall_error hcall
    cases h
    rfl
  | ok call =>
    rw [hcall] at h
    dsimp only at h ⊢
    split at h
    next hkey =>
      cases h
      rw [orNone, if_pos hkey]
      rfl
    next hkey =>
      have houtcome : (runInterface ctx call.interfaceKey call.input).1 =
        (Assistant.execute ctx.app ctx.user call.interfaceKey call.input []).1 := rfl
      cases hrun : (runInterface ctx call.interfaceKey call.input).1 with
      | ok answer =>
        rw [hrun] at h
        cases h
      | error e =>
        obtain ⟨status, message, rfl⟩ := hbehaves call e hcall (houtcome.symm.trans hrun)
        rw [hrun] at h
        cases h
        split <;> rfl

/-- The tools that name their interface in an argument. -/
def genericTools : List Str := ["query_agent_interface", "mutate_agent_interface"]

/-- A call is generic, of an unknown tool, or names its own key. -/
def NamesItself (toolName : Str) (key : Option Str) : Prop :=
  strip toolName ∈ genericTools ∨ Interface.ofKey (strip toolName) = none ∨ key = some (strip toolName)

instance (toolName : Str) (key : Option Str) : Decidable (NamesItself toolName key) :=
  inferInstanceAs (Decidable (_ ∨ _ ∨ _))

theorem resolveGeneric_key {permission reason : Str} {refused : Bool} {arguments : Arguments F} {call : ToolCall F}
    (h : resolveGeneric permission refused reason arguments = .ok call) :
    call.interfaceKey = (argument arguments "interface_key").strippedText := by
  unfold resolveGeneric at h
  dsimp only at h
  split at h
  next =>
    split at h
    next => cases h
    next =>
      cases h
      rfl
  next =>
    cases h
    rfl

theorem ofKey_ne {key : Str} {i : Interface} (h : Interface.ofKey key = some i) : key ≠ [] := by
  rw [← ofKey_key h]
  cases i <;> exact List.cons_ne_nil _ _

/-- The end of a call agrees with its start just when the call names itself. -/
theorem agrees_iff (toolName : Str) (arguments : Arguments F) :
    givenInterfaceKey arguments = (resolvedKey toolName arguments).or (givenInterfaceKey arguments) ↔
      NamesItself toolName (givenInterfaceKey arguments) := by
  have hgeneric : ∀ {permission reason : Str} {refused : Bool},
      resolveToolCall toolName arguments = resolveGeneric permission refused reason arguments →
        givenInterfaceKey arguments = (resolvedKey toolName arguments).or (givenInterfaceKey arguments) := by
    intro permission reason refused hresolve
    unfold resolvedKey
    cases hcall : resolveToolCall toolName arguments with
    | error err => rfl
    | ok call =>
      rw [hresolve] at hcall
      dsimp only
      rw [resolveGeneric_key hcall, givenInterfaceKey]
      cases orNone (argument arguments "interface_key").strippedText <;> rfl
  by_cases hquery : strip toolName = "query_agent_interface".toList
  · refine iff_of_true (hgeneric (if_pos hquery)) (.inl ?_)
    rw [hquery]
    exact List.mem_cons_self
  · by_cases hmutate : strip toolName = "mutate_agent_interface".toList
    · refine iff_of_true (hgeneric ((if_neg hquery).trans (if_pos hmutate))) (.inl ?_)
      rw [hmutate]
      exact List.mem_cons_of_mem _ List.mem_cons_self
    · have hnot : strip toolName ∉ genericTools := by
        intro hmem
        simp only [genericTools, List.mem_cons, List.not_mem_nil, or_false] at hmem
        exact hmem.elim hquery hmutate
      cases hi : Interface.ofKey (strip toolName) with
      | none =>
        have hkey : resolvedKey toolName arguments = none := by
          simp only [resolvedKey, resolveToolCall, if_neg hquery, if_neg hmutate, hi]
        rw [hkey, Option.none_or]
        exact iff_of_true rfl (.inr (.inl hi))
      | some i =>
        have hkey : resolvedKey toolName arguments = some (strip toolName) := by
          simp only [resolvedKey, resolveToolCall, if_neg hquery, if_neg hmutate, hi]
          exact if_neg (ofKey_ne hi)
        rw [hkey, Option.some_or]
        constructor
        · exact fun h => .inr (.inr h)
        · rintro (h | h | h)
          · exact absurd h hnot
          · rw [hi] at h
            cases h
          · exact h

/-- The end of a call names itself. -/
theorem end_namesItself (toolName : Str) (arguments : Arguments F) :
    NamesItself toolName ((resolvedKey toolName arguments).or (givenInterfaceKey arguments)) := by
  by_cases hself : NamesItself toolName (givenInterfaceKey arguments)
  · rw [← (agrees_iff toolName arguments).2 hself]
    exact hself
  · obtain ⟨hgeneric, hknown, -⟩ : strip toolName ∉ genericTools ∧ Interface.ofKey (strip toolName) ≠ none ∧
        givenInterfaceKey arguments ≠ some (strip toolName) := by
      simpa only [NamesItself, not_or] using hself
    simp only [genericTools, List.mem_cons, List.not_mem_nil, or_false, not_or] at hgeneric
    obtain ⟨i, hi⟩ := Option.ne_none_iff_exists'.1 hknown
    have hkey : resolvedKey toolName arguments = some (strip toolName) := by
      simp only [resolvedKey, resolveToolCall, if_neg hgeneric.1, if_neg hgeneric.2, hi]
      exact if_neg (ofKey_ne hi)
    rw [hkey, Option.some_or]
    exact .inr (.inr rfl)

/-! ## The calls of a chat -/

/-- The arguments of a tool call are an object, or count as given. -/
theorem action_toolCall_or {limit : Nat} {output : Str} {tool arguments : Value F}
    (h : actionFromModelOutput limit output = .ok (.toolCall tool arguments)) :
      arguments.or (.dict []) = arguments := by
  cases hextract : extractJsonObject (F := F) limit output with
  | error err =>
    rw [actionFromModelOutput, hextract] at h
    cases h
  | ok value =>
    by_cases hdict : ∃ parsed, value = .dict parsed
    · obtain ⟨parsed, rfl⟩ := hdict
      rw [action_of_object hextract] at h
      rcases actionOfObject_cases parsed output with ⟨-, err, herr⟩ | ⟨-, -, hkind | ⟨content, hkind⟩⟩ | ⟨-, hcall⟩
      · rw [herr] at h
        cases h
      · rw [hkind] at h
        cases h
      · rw [hkind] at h
        cases h
      · rw [hcall] at h
        cases h
        exact or_or _
    · rw [action_of_other hextract fun parsed h => hdict ⟨parsed, h⟩] at h
      cases h

section

variable (chat : ChatRun F) {R : Str → Option Str → Option Str → Prop}

theorem react_calls {n : Nat} {output : Str} (hrun : ∀ tool arguments,
    actionFromModelOutput chat.recursionLimit output = .ok (.toolCall tool (.dict arguments)) →
      Calls R (chat.runTool n tool.strippedText arguments).1) : Calls R (chat.react n output).1 := by
  rw [ChatRun.react]
  split
  next => exact .nil
  next => exact .nil
  next tool arguments haction =>
    rw [ChatRun.callTool]
    split
    next => exact .nil
    next => exact .nil
    next =>
      have hor := action_toolCall_or haction
      split
      next items hitems =>
        rw [hor] at hitems
        rw [hitems] at haction
        exact hrun tool items haction
      next => exact .nil
  next => exact .nil

/-- The answers of the rounds are the provider's. -/
theorem rounds_outputs : ∀ {left n : Nat} {working : List (Str × Str)} {i : Nat} {output : Except Str Str},
    (chat.rounds left n working).outputs[i]? = some output → ∃ messages, chat.complete (n + i) messages = output
  | 0, _, _, _, _, h => by cases h
  | left + 1, n, working, i, output, h => by
    have hround : chat.complete n (chat.systemMessages ++ working) = (chat.round n working).1 := by
      rw [ChatRun.round]
      cases chat.complete n (chat.systemMessages ++ working) <;> rfl
    rw [ChatRun.rounds] at h
    generalize chat.round n working = turn at hround h
    obtain ⟨first, events, outcome⟩ := turn
    cases i with
    | zero =>
      refine ⟨_, hround.trans ?_⟩
      cases outcome <;> exact Option.some.inj h
    | succ i =>
      cases outcome with
      | again message =>
        have hrest := rounds_outputs h
        rwa [Nat.add_right_comm, Nat.add_assoc] at hrest
      | answer text => cases h
      | raised message => cases h

theorem rounds_calls : ∀ {left n : Nat} {working : List (Str × Str)}, (∀ i output tool arguments,
      (chat.rounds left n working).outputs[i]? = some (.ok output) →
      actionFromModelOutput chat.recursionLimit output = .ok (.toolCall tool (.dict arguments)) →
        Calls R (chat.runTool (n + i) tool.strippedText arguments).1) → Calls R (chat.rounds left n working).events
  | 0, _, _, _ => .nil
  | left + 1, n, working, hrun => by
    have hround : ∀ output, (chat.round n working).1 = .ok output → (chat.round n working).2 = chat.react n output := by
      rw [ChatRun.round]
      intro output h
      split at h
      next => cases h
      next => rw [Except.ok.inj h]
    have hraised : ∀ message, (chat.round n working).1 = .error message → (chat.round n working).2.1 = [] := by
      rw [ChatRun.round]
      intro message h
      split
      next => rfl
      next hok =>
        rw [hok] at h
        cases h
    rw [ChatRun.rounds] at hrun ⊢
    generalize chat.round n working = turn at hround hraised hrun ⊢
    obtain ⟨first, events, outcome⟩ := turn
    have hevents : Calls R events := by
      cases first with
      | error message =>
        rw [show events = [] from hraised message rfl]
        exact .nil
      | ok output =>
        rw [show events = (chat.react n output).1 from congrArg Prod.fst (hround output rfl)]
        refine react_calls chat fun tool arguments haction => ?_
        cases outcome <;> exact hrun 0 output tool arguments rfl haction
    cases outcome with
    | again message =>
      refine hevents.append (rounds_calls fun i output tool arguments houtput haction => ?_)
      have hlater := hrun (i + 1) output tool arguments houtput haction
      rwa [← Nat.add_assoc, Nat.add_right_comm] at hlater
    | answer text => exact hevents
    | raised message => exact hevents

end

/-- A call through the registry ends under the interface it resolves to. -/
theorem runTool_calls (chat : ChatRun F) {ctx : ToolContext F} {n : Nat} {toolName : Str} {arguments : Arguments F}
    (hexecute : chat.execute n toolName arguments = (executeTool ctx toolName arguments []).1)
    (hbehaves : Behaves ctx toolName arguments) :
    Calls (fun toolName key key' => NamesItself toolName key' ∧ (NamesItself toolName key → key' = key))
      (chat.runTool n toolName arguments).1 := by
  have hend := end_namesItself toolName arguments
  have hagrees := fun h => ((agrees_iff toolName arguments).2 h).symm
  rw [ChatRun.runTool, hexecute]
  cases houtcome : (executeTool ctx toolName arguments []).1 with
  | ok result =>
    rw [← executeTool_result_key ctx houtcome, Option.some_or] at hend hagrees
    exact .cons ⟨hend, hagrees⟩ .nil
  | error err =>
    dsimp only
    rw [if_pos (executeTool_caught hbehaves houtcome)]
    refine .cons ?_ .nil
    rw [executeTool_error_key hbehaves houtcome]
    exact ⟨hend, hagrees⟩

end Registry

/-- **Which calls leave a run that never ends.** When a stream has ended, as many runs on the page are open as calls
were started that are not generic, not of an unknown tool and do not give their own key as `interface_key`; where no
call was answered with an exception that is no tool error, that is. -/
theorem runs_settled_iff [Python F] (spread : Value F → Value F) (chat : ChatRun F) (start : ChatStart)
    (ctx : Nat → ToolContext F)
    (htools : ∀ n toolName arguments, chat.execute n toolName arguments = (executeTool (ctx n) toolName arguments []).1)
    (hhandlers : ∀ n output tool arguments, (chat.generate start).outputs[n]? = some (.ok output) →
      actionFromModelOutput chat.recursionLimit output = .ok (.toolCall tool (.dict arguments)) →
        Behaves (ctx n) tool.strippedText arguments)
    (conversationId modelId : Option Nat) {arrivals : List (Arrival F)}
    (harrivals : arrivals.map Arrival.event = (chat.generate start).events) :
    openRuns ((Page.submitted conversationId modelId).handleAll spread arrivals).toolRuns =
      (chat.generate start).events.countP (leavesOpen NamesItself) ∧
    ((∀ run ∈ ((Page.submitted conversationId modelId).handleAll spread arrivals).toolRuns, run.status ≠ .running) ↔
      ∀ toolName key arguments, .toolStart toolName key arguments ∈ (chat.generate start).events →
        NamesItself toolName key) := by
  have hcalls : Calls (fun toolName key key' => NamesItself toolName key' ∧ (NamesItself toolName key → key' = key))
      (chat.rounds chat.maxRounds 0 start.workingMessages).events :=
    rounds_calls chat fun n output tool arguments houtput haction =>
      runTool_calls chat (htools _ _ arguments)
        ((Nat.zero_add n).symm ▸ hhandlers n output tool arguments houtput haction)
  have hending : ∀ e ∈ (chat.ending start (chat.rounds chat.maxRounds 0 start.workingMessages).answer).1,
      isTool e = false := by
    rcases ending_cases chat start (chat.rounds chat.maxRounds 0 start.workingMessages).answer with
      ⟨deltas, message, modelConfigId, heq, -⟩ | ⟨text, heq⟩
    · rw [heq]
      intro e he
      rcases List.mem_append.1 he with he | he
      · obtain ⟨delta, -, rfl⟩ := List.mem_map.1 he
        rfl
      · rw [List.mem_singleton.1 he]
        rfl
    · rw [heq]
      intro e he
      rw [List.mem_singleton.1 he]
      rfl
  have hcount : openRuns ((Page.submitted conversationId modelId).handleAll spread arrivals).toolRuns =
      (chat.generate start).events.countP (leavesOpen NamesItself) := by
    have hother : ∀ {e : ChatEvent F}, isTool e = false → leavesOpen NamesItself e = false := by
      intro e he
      cases e <;> first | rfl | cases he
    obtain ⟨opening, planned, ending, closing, rfl, hopening, hplanned, hend, hclosing⟩ := arrivals_split harrivals
    have hlate : ∀ a ∈ ending ++ [closing], isTool a.event = false := by
      intro a ha
      rcases List.mem_append.1 ha with ha | ha
      · refine hending _ ?_
        rw [← hend]
        exact List.mem_map_of_mem ha
      · rw [List.mem_singleton.1 ha, hclosing]
        rfl
    have hpage : ((Page.submitted conversationId modelId).handleAll spread
        (opening :: (planned ++ ending ++ [closing]))).toolRuns =
        (((Page.submitted conversationId modelId).handle spread opening).handleAll spread planned).toolRuns := by
      rw [List.append_assoc]
      exact (congrArg Page.toolRuns (handleAll_append spread _ planned (ending ++ [closing]))).trans
        (runs_of_others spread hlate _)
    have hempty : ((Page.submitted conversationId modelId : Page F).handle spread opening).toolRuns = [] := by
      simp [Page.handle, hopening, Page.submitted]
    have hzero : (ending ++ [closing]).countP (fun a => leavesOpen NamesItself a.event) = 0 :=
      List.countP_eq_zero.2 fun a ha => by simp [hother (hlate a ha)]
    rw [hpage, openRuns_calls spread hcalls hplanned
      (by rw [hempty]; exact fun run hrun => by cases hrun), hempty, ← harrivals,
      ← hplanned, List.countP_map, List.countP_map, List.append_assoc, List.countP_cons, List.countP_append]
    simp only [Function.comp_def, hzero, hopening, openRuns, List.countP_nil]
    simp [leavesOpen]
  have hsettled : ∀ runs : List (ToolRun F), (∀ run ∈ runs, run.status ≠ .running) ↔ openRuns runs = 0 := by
    intro runs
    simp [openRuns, List.countP_eq_zero, isRunning]
  refine ⟨hcount, ?_⟩
  rw [hsettled, hcount, List.countP_eq_zero]
  constructor
  · intro hnone toolName key arguments hmem
    simpa [leavesOpen] using hnone _ hmem
  · intro hall e he
    cases e with
    | toolStart toolName key arguments => simpa [leavesOpen] using hall toolName key arguments he
    | _ => simp [leavesOpen]

/-! ### A call by its key without `interface_key` -/

/-- The events of a chat, all at once. -/
def atOnce (events : List (ChatEvent ℚ)) : List (Arrival ℚ) := events.map fun event => ⟨0, 0, event⟩

theorem atOnce_events (events : List (ChatEvent ℚ)) : (atOnce events).map Arrival.event = events := by
  simp [atOnce, Function.comp_def]

/-- The call of `job` does not give its key: one run stays open. -/
theorem runs_settled_iff_callThenText :
    openRuns ((Page.submitted none none).handleAll id
      (atOnce ((aliceChat callThenText).generate started).events)).toolRuns = 1 ∧
      ¬ ∀ run ∈ ((Page.submitted none none).handleAll id
        (atOnce ((aliceChat callThenText).generate started).events)).toolRuns,
        run.status ≠ .running := by
  obtain ⟨hcount, hsettled⟩ := runs_settled_iff id (aliceChat callThenText) started
    (fun _ => aliceContext) (fun _ _ _ => rfl)
    (fun n output tool arguments houtput haction call err hcall herr => by
      obtain ⟨messages, hcomplete⟩ := rounds_outputs _ houtput
      obtain rfl : callThenText (0 + n) = output := Except.ok.inj hcomplete
      obtain ⟨rfl, rfl⟩ := callThenText_call haction
      have hresolve : resolveToolCall (Value.str "job" : Value ℚ).strippedText ([] : Arguments ℚ) =
          .ok ⟨"dynamic-query", "job", .dict []⟩ := rfl
      rw [hresolve] at hcall
      cases hcall
      have hrun : (Assistant.execute aliceContext.app aliceContext.user "job" ([] : Arguments ℚ) []).1 =
          .error (.interface 400 "job_id must be an integer") := rfl
      cases hrun.symm.trans herr
      exact ⟨_, _, rfl⟩) none none (atOnce_events _)
  have hone : ((aliceChat callThenText).generate started).events.countP (leavesOpen NamesItself) =
      1 := by decide
  refine ⟨hcount.trans hone, fun hall => ?_⟩
  have hzero := hsettled.1 hall
  have hleft := List.countP_pos_iff.1 (hone ▸ Nat.one_pos)
  obtain ⟨e, he, hopen⟩ := hleft
  cases e with
  | toolStart toolName key arguments =>
    rw [leavesOpen, Bool.not_eq_true', decide_eq_false_iff_not] at hopen
    exact hopen (hzero toolName key arguments he)
  | _ => cases hopen

end SlurmWeb.AssistantView
