import SlurmWeb.Assistant.Interfaces
import SlurmWeb.Lib.Json

/-!
# Reading a model output (slurmweb/ai/service.py)

An output is stripped of a code fence and decoded, once whole and once from its first brace to its
last. What is no object is shown as it came.

| here | there |
| --- | --- |
| `dropOpening`, `dropClosing`, `braceMatch` | the regular expressions of `_extract_json_object` (:198) |
| `extractJsonObject` | `_extract_json_object` (:198) |
| `looksLikeInternalToolEnvelope` | `_looks_like_internal_tool_envelope` (:217) |
| `actionFromModelOutput` | `_action_from_model_output` (:515) |
| `validateToolAction` | `_validate_tool_action` (:103) |
| `answerText` | `action.get("content") or raw_output.strip()` (:674) |

`Envelopes` is the class of outputs that are nothing but objects for the program.

* `extract_single`, `extract_several`, `extract_listing` — what the decoder makes of each form.
* `answer_hidden_iff` — the objects stay hidden exactly when there is one alone that says something.
-/

namespace SlurmWeb.Chat

open Strings Py Py.Json Assistant

variable {F : Type}

/-! ## The functions -/

def fence : Str := "```"

/-- `[a-zA-Z0-9_-]` -/
def isLanguageChar (c : Char) : Bool := c.isAlphanum || c == '_' || c == '-'

/-- `re.sub(r"^<fence>[a-zA-Z0-9_-]*\s*", "", text)` -/
def dropOpening (text : Str) : Str := ((text.drop 3).dropWhile isLanguageChar).dropWhile isSpace

/-- `re.sub(r"\s*<fence>$", "", text)`, on a text that ends in no newline. -/
def dropClosing (text : Str) : Str := if fence <:+ text then rstrip (text.take (text.length - 3)) else text

def stripFences (text : Str) : Str := if fence <+: text then dropClosing (dropOpening text) else text

/-- `re.search(r"\{.*\}", text, re.DOTALL)` -/
def braceMatch (text : Str) : Option Str :=
  let found := ((text.dropWhile (· ≠ '{')).reverse.dropWhile (· ≠ '}')).reverse
  if found = [] then none else some found

def raised : LoadsError → Py.Error
  | .decode | .value => .valueError
  | .recursion => .other "RecursionError"

variable [Python F] (limit : Nat)

/-- `except json.JSONDecodeError: return None` -/
def loadsOrNone (text : Str) : Except Py.Error (Value F) :=
  match loads limit text with
  | .ok parsed => .ok parsed
  | .error .decode => .ok .none
  | .error err => .error (raised err)

/-- `_extract_json_object` (:198) -/
def extractJsonObject (value : Str) : Except Py.Error (Value F) :=
  if strip value = [] then .ok .none
  else
    let text := stripFences (strip value)
    match loads limit text with
    | .ok parsed => .ok parsed
    | .error .decode =>
      match braceMatch text with
      | some found => loadsOrNone limit found
      | none => .ok .none
    | .error err => .error (raised err)

/-- `_looks_like_internal_tool_envelope` (:217): a `type` that cannot be hashed is a `TypeError`. -/
def looksLikeInternalToolEnvelope : Value F → Except Py.Error Bool
  | .dict parsed => do
    let _ ← (argument parsed "type").hash
    if (argument parsed "type").isStr "tool_call" || (argument parsed "type").isStr "final" then return false
    else return ["tool_request".toList, "interface_key", "arguments"].any fun key => (Value.lookup parsed key).isSome
  | _ => .ok false

inductive Action (F : Type)
  | invalidInternal (content : Str)
  | toolCall (tool arguments : Value F)
  | final (content : Str)

/-- An output that decodes to an object (:519). -/
def actionOfObject (parsed : Arguments F) (output : Str) : Except Py.Error (Action F) := do
  if ← looksLikeInternalToolEnvelope (.dict parsed) then return .invalidInternal (strip output)
  else if (argument parsed "type").isStr "tool_call" then
    return .toolCall (argument parsed "tool") ((argument parsed "arguments").or (.dict []))
  else match argument parsed "content" with
    | .str content => return .final (strip content)
    | _ => return .final (strip output)

/-- `_action_from_model_output` (:515) -/
def actionFromModelOutput (output : Str) : Except Py.Error (Action F) := do
  match ← extractJsonObject limit output with
  | .dict parsed => actionOfObject parsed output
  | _ => return .final (strip output)

/-- What `_validate_tool_action` raises: an `AIInvalidToolRequestError`, or another exception. -/
inductive ToolActionError
  | invalid (message : Str)
  | python (err : Py.Error)

def requiresInterfaceKey (toolName : Str) : Str :=
  toolName ++
    " requires arguments.interface_key. Use \x7b\"type\":\"tool_call\",\"tool\":\"query_agent_interface\",\"arguments\":\x7b\"interface_key\":\"nodes\",\"arguments\":\x7b\x7d\x7d\x7d or call a direct interface tool such as nodes.".toList

/-- `_validate_tool_action` (:103) -/
def validateToolAction (tool arguments : Value F) : Except ToolActionError Unit :=
  let toolName := tool.strippedText
  if toolName = [] then .error (.invalid "tool is required for tool_call")
  else if toolName ∈ ["query_agent_interface".toList, "mutate_agent_interface"] then
    match arguments.or (.dict []) with
    | .dict arguments =>
      if (argument arguments "interface_key").strippedText = [] then .error (.invalid (requiresInterfaceKey toolName))
      else .ok ()
    | _ => .error (.python .attributeError)
  else .ok ()

/-- The text of a final action. -/
def answerText (content output : Str) : Str := if content = [] then strip output else content

/-! ## Outputs that are objects for the program -/

/-- An object with a meaning of its own. -/
def IsEnvelope (parsed : Arguments F) : Prop :=
  argument parsed "type" = .str "tool_call" ∨ argument parsed "type" = .str "final" ∨
    looksLikeInternalToolEnvelope (.dict parsed) = .ok true

/-- The text of one such object. -/
structure IsObject (text : Str) (parsed : Arguments F) : Prop where
  opens : text.head? = some '{'
  closes : text.getLast? = some '}'
  parses : loads limit text = .ok (.dict parsed)
  envelope : IsEnvelope parsed

def Blank (gap : Str) : Prop := gap ≠ [] ∧ ∀ c ∈ gap, isSpace c = true

/-- Objects with whitespace between them. -/
inductive Objects : Str → List (Arguments F) → Prop
  | one {text : Str} {parsed : Arguments F} : IsObject limit text parsed → Objects text [parsed]
  | more {text gap rest : Str} {parsed : Arguments F} {others : List (Arguments F)} : IsObject limit text parsed →
      Blank gap → Objects rest others → Objects (text ++ (gap ++ rest)) (parsed :: others)

/-- A code fence around a text. -/
def Fenced (body text : Str) : Prop := ∃ language before after : Str, (∀ c ∈ language, isLanguageChar c = true) ∧
  (∀ c ∈ before, isSpace c = true) ∧ (∀ c ∈ after, isSpace c = true) ∧
  text = fence ++ (language ++ (before ++ (body ++ (after ++ fence))))

/-- A bare object, or a fence around objects. -/
inductive Piece : Str → List (Arguments F) → Prop
  | bare {text : Str} {parsed : Arguments F} : IsObject limit text parsed → Piece text [parsed]
  | fenced {body text : Str} {objects : List (Arguments F)} : Objects limit body objects →
      Fenced body text → Piece text objects

inductive Pieces : Str → List (Arguments F) → Prop
  | one {text : Str} {objects : List (Arguments F)} : Piece limit text objects → Pieces text objects
  | more {text gap rest : Str} {objects others : List (Arguments F)} : Piece limit text objects →
      Blank gap → Pieces rest others → Pieces (text ++ (gap ++ rest)) (objects ++ others)

/-- One JSON list of such objects. -/
structure IsListing (text : Str) (objects : List (Arguments F)) : Prop where
  opens : text.head? = some '['
  closes : text.getLast? = some ']'
  parses : loads limit text = .ok (.list (objects.map .dict))
  nonempty : objects ≠ []
  envelopes : ∀ parsed ∈ objects, IsEnvelope parsed

def Listing (text : Str) (objects : List (Arguments F)) : Prop :=
  IsListing limit text objects ∨ ∃ body, IsListing limit body objects ∧ Fenced body text

/-- One or more objects, bare or fenced, alone, several or in a list, and nothing else. -/
def Envelopes (text : Str) (objects : List (Arguments F)) : Prop := Pieces limit text objects ∨
  Listing limit text objects

variable (F) in
/-- A lone object, and if it is final, one with something to say that is no object itself. -/
def Sole (text : Str) : Prop := ∃ parsed : Arguments F, Piece limit text [parsed] ∧
  (argument parsed "type" = .str "final" →
  ∃ content, argument parsed "content" = .str content ∧ strip content ≠ [] ∧
    ∀ objects : List (Arguments F), ¬ Envelopes limit (strip content) objects)

/-- An answer that shows the content of a final object, and no object. -/
def Shown (objects : List (Arguments F)) (answer : Str) : Prop :=
  (∃ parsed ∈ objects, argument parsed "type" = .str "final" ∧ ∃ content, argument parsed "content" = .str content ∧
    answer = strip content) ∧ ∀ others : List (Arguments F), ¬ Envelopes limit answer others

/-! ## Fences -/

theorem not_isLanguageChar {c : Char} (h : isSpace c = true) : isLanguageChar c = false := by
  have hn : c.toNat ≤ 32 ∨ 0x85 ≤ c.toNat := by
    simp only [isSpace, Bool.or_eq_true, Bool.and_eq_true, decide_eq_true_eq, beq_iff_eq] at h
    omega
  have hval : c.toNat = c.val.toNat := rfl
  have hunder : c ≠ '_' := by
    rintro rfl
    revert hn
    decide
  have hdash : c ≠ '-' := by
    rintro rfl
    revert hn
    decide
  simp only [isLanguageChar, Char.isAlphanum, Char.isAlpha, Char.isUpper, Char.isLower, Char.isDigit,
    Bool.or_eq_false_iff,
    Bool.and_eq_false_iff, beq_eq_false_iff_ne, decide_eq_false_iff_not, UInt32.le_iff_toNat_le, ne_eq, hunder, hdash,
    not_false_eq_true, and_true, ge_iff_le, not_le]
  refine ⟨⟨?_, ?_⟩, ?_⟩ <;> simp <;> omega

theorem dropWhile_of_head {p : Char → Bool} : ∀ {text : Str}, (∀ c ∈ text.head?, p c = false) → text.dropWhile p = text
  | [], _ => rfl
  | c :: text, h => by rw [List.dropWhile_cons_of_neg (by rw [h c rfl]; exact Bool.false_ne_true)]

theorem dropOpening_fence {language before rest : Str} (hlanguage : ∀ c ∈ language, isLanguageChar c = true)
    (hbefore : ∀ c ∈ before, isSpace c = true) (hrest : ∀ c ∈ rest.head?,
      isLanguageChar c = false ∧ isSpace c = false) :
    dropOpening (fence ++ (language ++ (before ++ rest))) = rest := by
  have hhead : ∀ c ∈ (before ++ rest).head?, isLanguageChar c = false := by
    cases before with
    | nil => exact fun c hc => (hrest c hc).1
    | cons b before =>
      rintro c hc
      cases hc
      exact not_isLanguageChar (hbefore b List.mem_cons_self)
  show (List.dropWhile isLanguageChar (language ++ (before ++ rest))).dropWhile isSpace = rest
  rw [List.dropWhile_append_of_pos hlanguage, dropWhile_of_head hhead, List.dropWhile_append_of_pos hbefore,
    dropWhile_of_head fun c hc => (hrest c hc).2]

/-- Blanks go as far as the last code point that is none. -/
theorem rstrip_append {text : Str} {c : Char} (hlast : text.getLast? = some c) (hc : isSpace c = false) (rest : Str) :
    rstrip (text ++ rest) = text ++ rstrip rest := by
  obtain ⟨init, rfl⟩ := List.getLast?_eq_some_iff.1 hlast
  have hkeep : (init ++ [c]).reverse.dropWhile isSpace = (init ++ [c]).reverse := dropWhile_of_head fun x hx => by
    rw [List.head?_reverse, hlast] at hx
    cases hx
    exact hc
  rw [rstrip, rstrip, List.reverse_append, List.dropWhile_append]
  split
  next hnil =>
    rw [hkeep, List.reverse_reverse, List.isEmpty_iff.1 hnil, List.reverse_nil, List.append_nil]
  next => rw [List.reverse_append, List.reverse_reverse]

theorem rstrip_blank {gap : Str} (h : ∀ c ∈ gap, isSpace c = true) : rstrip gap = [] := by
  rw [rstrip, List.dropWhile_eq_nil_iff.2 fun c hc => h c (List.mem_reverse.1 hc), List.reverse_nil]

theorem take_append_fence (text : Str) : (text ++ fence).take ((text ++ fence).length - 3) = text := by
  rw [List.length_append, show fence.length = 3 from rfl, Nat.add_sub_cancel]
  exact List.take_left

/-- The closing fence goes with the blanks before it. -/
theorem dropClosing_fence {body after : Str} {c : Char} (hlast : body.getLast? = some c) (hc : isSpace c = false)
    (hafter : ∀ c ∈ after, isSpace c = true) : dropClosing (body ++ (after ++ fence)) = body := by
  have hassoc : body ++ (after ++ fence) = (body ++ after) ++ fence := (List.append_assoc _ _ _).symm
  rw [dropClosing, if_pos (hassoc ▸ List.suffix_append _ _), hassoc, take_append_fence, rstrip_append hlast hc,
    rstrip_blank hafter, List.append_nil]

/-- A text up to a brace stays. -/
theorem dropClosing_append {text : Str} (hlast : text.getLast? = some '}') (rest : Str) :
    ∃ kept, dropClosing (text ++ rest) = text ++ kept := by
  rw [dropClosing]
  split
  next hsuffix =>
    obtain ⟨init, hinit⟩ := hsuffix
    obtain ⟨front, hfront⟩ : ∃ front, rest = front ++ fence := by
      rcases List.append_eq_append_iff.1 hinit with ⟨mid, htext, hfence⟩ | ⟨mid, hmid, hrest⟩
      · -- the fence would reach into the text, which ends in a brace
        cases mid with
        | nil => exact ⟨[], hfence.symm⟩
        | cons a mid =>
          have hbrace : '}' ∈ fence := by
            rw [hfence]
            refine List.mem_append_left _ (List.mem_of_getLast? ?_)
            rw [htext, List.getLast?_append_of_ne_nil _ (List.cons_ne_nil a mid)] at hlast
            exact hlast
          exact absurd hbrace (by decide)
      · exact ⟨mid, hrest⟩
    refine ⟨rstrip front, ?_⟩
    rw [hfront, ← List.append_assoc, take_append_fence, rstrip_append hlast (by decide)]
  next => exact ⟨rest, rfl⟩

/-- The last brace of a text. -/
theorem split_brace {text : Str} (h : '}' ∈ text) : ∃ front rest, text = front ++ '}' :: rest ∧ '}' ∉ rest := by
  obtain ⟨a, b, hab, hnot⟩ := List.eq_append_cons_of_mem (List.mem_reverse.2 h)
  refine ⟨b.reverse, a.reverse, ?_, fun h => hnot (List.mem_reverse.1 h)⟩
  rw [← List.reverse_reverse text, hab, List.reverse_append, List.reverse_cons, List.append_assoc]
  rfl

theorem braceMatch_append {front rest : Str} (hopen : front.head? = some '{') (hrest : '}' ∉ rest) :
    braceMatch (front ++ '}' :: rest) = some (front ++ ['}']) := by
  have htext : (front ++ '}' :: rest).dropWhile (· ≠ '{') = front ++ '}' :: rest := dropWhile_of_head fun c hc => by
    rw [List.head?_append, hopen] at hc
    cases hc
    rfl
  have hblank : ∀ c ∈ rest.reverse, decide (c ≠ '}') = true := fun c hc => by
    refine decide_eq_true ?_
    rintro rfl
    exact hrest (List.mem_reverse.1 hc)
  have hfound : ((front ++ '}' :: rest).reverse.dropWhile (· ≠ '}')).reverse = front ++ ['}'] := by
    rw [List.reverse_append, List.reverse_cons, List.append_assoc, List.dropWhile_append_of_pos hblank,
      List.singleton_append, List.dropWhile_cons_of_neg (by simp), List.reverse_cons, List.reverse_reverse]
  rw [braceMatch, htext, hfound, if_neg (by simp)]

/-! ## The three forms of an output -/

variable {limit}

theorem IsObject.ne_nil {text : Str} {parsed : Arguments F} (h : IsObject limit text parsed) : text ≠ [] := by
  rintro rfl
  exact absurd h.opens (by simp)

theorem IsObject.brace {text : Str} {parsed : Arguments F} (h : IsObject limit text parsed) : '}' ∈ text :=
  List.mem_of_getLast? h.closes

theorem Objects.brace {text : Str} {objects : List (Arguments F)} (h : Objects limit text objects) : '}' ∈ text := by
  cases h with
  | one h => exact h.brace
  | more h => exact List.mem_append_left _ h.brace

theorem Piece.brace {text : Str} {objects : List (Arguments F)} (h : Piece limit text objects) : '}' ∈ text := by
  cases h with
  | bare h => exact h.brace
  | fenced h hfence =>
    obtain ⟨language, before, after, -, -, -, rfl⟩ := hfence
    simp [h.brace]

theorem Pieces.brace {text : Str} {objects : List (Arguments F)} (h : Pieces limit text objects) : '}' ∈ text := by
  cases h with
  | one h => exact h.brace
  | more h => exact List.mem_append_left _ h.brace

/-- Objects start with one, and a brace follows if it is not the only one. -/
theorem Objects.head {text : Str} {objects : List (Arguments F)} (h : Objects limit text objects) :
    ∃ object parsed rest, text = object ++ rest ∧ IsObject limit object parsed ∧
      (objects = [parsed] ∧ rest = [] ∨ '}' ∈ rest) := by
  cases h with
  | one h => exact ⟨text, _, [], (List.append_nil text).symm, h, .inl ⟨rfl, rfl⟩⟩
  | more h _ hrest => exact ⟨_, _, _, rfl, h, .inr (List.mem_append_right _ hrest.brace)⟩

variable (limit) in
/-- The text that is decoded is one object. -/
def Single (text : Str) (parsed : Arguments F) : Prop := IsObject limit (stripFences text) parsed

variable (F limit) in
/-- The text that is decoded goes on behind an object, up to another brace at least. -/
def Several (text : Str) : Prop :=
  ∃ object, ∃ parsed : Arguments F, ∃ rest, stripFences text = object ++ rest ∧
    IsObject limit object parsed ∧ '}' ∈ rest

theorem stripFences_bare {text : Str} {c : Char} (hopen : text.head? = some c) (hc : c ≠ '`') :
    stripFences text = text := by
  refine if_neg fun h => hc ?_
  obtain ⟨rest, rfl⟩ := h
  cases hopen
  rfl

theorem stripFences_fence (language before rest : Str) (hlanguage : ∀ c ∈ language, isLanguageChar c = true)
    (hbefore : ∀ c ∈ before, isSpace c = true) (hrest : ∀ c ∈ rest.head?,
      isLanguageChar c = false ∧ isSpace c = false) :
    stripFences (fence ++ (language ++ (before ++ rest))) = dropClosing rest := by
  rw [stripFences, if_pos (List.prefix_append _ _), dropOpening_fence hlanguage hbefore hrest]

/-- The opening brace is neither part of a language nor blank. -/
theorem IsObject.head {object : Str} {parsed : Arguments F} (h : IsObject limit object parsed) (rest : Str) :
    ∀ c ∈ (object ++ rest).head?, isLanguageChar c = false ∧ isSpace c = false := by
  rintro c hc
  rw [List.head?_append, h.opens] at hc
  cases hc
  decide

/-- A text that goes on with a brace does so without its closing fence. -/
theorem dropClosing_keeps (object : Str) {rest : Str} (hrest : '}' ∈ rest) :
    ∃ kept, dropClosing (object ++ rest) = object ++ kept ∧ '}' ∈ kept := by
  obtain ⟨front, tail, rfl, -⟩ := split_brace hrest
  have hlast : (object ++ (front ++ ['}'])).getLast? = some '}' := by
    rw [← List.append_assoc, List.getLast?_concat]
  obtain ⟨kept, hkept⟩ := dropClosing_append hlast tail
  have hassoc : object ++ (front ++ '}' :: tail) = object ++ (front ++ ['}']) ++ tail := by simp
  refine ⟨front ++ ['}'] ++ kept, ?_, by simp⟩
  rw [hassoc, hkept, List.append_assoc]

/-- What is decoded of a fence around objects, when something follows it. -/
theorem stripFences_fenced {body text : Str} (hfence : Fenced body text) {object rest : Str} {parsed : Arguments F}
    (hobject : IsObject limit object parsed) (hbody : body = object ++ rest) (tail : Str) :
    ∃ after, (∀ c ∈ after, isSpace c = true) ∧
      stripFences (text ++ tail) = dropClosing (object ++ (rest ++ (after ++ (fence ++ tail)))) := by
  obtain ⟨language, before, after, hlanguage, hbefore, hafter, rfl⟩ := hfence
  have hassoc : fence ++ (language ++ (before ++ (body ++ (after ++ fence)))) ++ tail =
      fence ++ (language ++ (before ++ (object ++ (rest ++ (after ++ (fence ++ tail)))))) := by
    rw [hbody]
    simp only [List.append_assoc]
  refine ⟨after, hafter, ?_⟩
  rw [hassoc, stripFences_fence _ _ _ hlanguage hbefore (hobject.head _)]

theorem fenced_tail {body text tail : Str} {objects : List (Arguments F)} (hobjects : Objects limit body objects)
    (hfence : Fenced body text) (htail : '}' ∈ tail) : Several F limit (text ++ tail) := by
  obtain ⟨object, parsed, rest, hbody, hobject, -⟩ := hobjects.head
  obtain ⟨after, -, hstrip⟩ := stripFences_fenced hfence hobject hbody tail
  obtain ⟨kept, hkept, hbrace⟩ := dropClosing_keeps object
    (show '}' ∈ rest ++ (after ++ (fence ++ tail)) by simp [htail])
  exact ⟨object, parsed, kept, hstrip.trans hkept, hobject, hbrace⟩

theorem fenced_alone {body text : Str} {objects : List (Arguments F)} (hobjects : Objects limit body objects)
    (hfence : Fenced body text) : Several F limit text ∨ ∃ parsed, objects = [parsed] := by
  obtain ⟨object, parsed, rest, hbody, hobject, hrest⟩ := hobjects.head
  rcases hrest with ⟨hone, -⟩ | hbrace
  · exact .inr ⟨parsed, hone⟩
  · obtain ⟨after, -, hstrip⟩ := stripFences_fenced hfence hobject hbody []
    obtain ⟨kept, hkept, hkeptBrace⟩ :=
      dropClosing_keeps object (show '}' ∈ rest ++ (after ++ (fence ++ [])) by simp [hbrace])
    rw [List.append_nil] at hstrip
    exact .inl ⟨object, parsed, kept, hstrip.trans hkept, hobject, hkeptBrace⟩

theorem IsObject.stripFences {text : Str} {parsed : Arguments F} (h : IsObject limit text parsed) (rest : Str) :
    stripFences (text ++ rest) = text ++ rest :=
  stripFences_bare (c := '{') (by rw [List.head?_append, h.opens]; rfl) (by decide)

/-- A piece of one object is decoded to it. -/
theorem Piece.single {text : Str} {parsed : Arguments F} (h : Piece limit text [parsed]) :
    Single limit text parsed := by
  cases h with
  | bare hobject =>
    have hsame := hobject.stripFences []
    rw [List.append_nil] at hsame
    rw [Single, hsame]
    exact hobject
  | fenced hobjects hfence =>
    cases hobjects with
    | one hobject =>
      obtain ⟨after, hafter, hstrip⟩ := stripFences_fenced hfence hobject (List.append_nil _).symm []
      rw [List.append_nil, List.append_nil, List.nil_append] at hstrip
      rw [Single, hstrip, dropClosing_fence hobject.closes (by decide) hafter]
      exact hobject
    | more _ _ hrest => cases hrest

/-- An output in pieces is one object, or goes on behind the first. -/
theorem pieces_forms {text : Str} {objects : List (Arguments F)} (h : Pieces limit text objects) :
    Several F limit text ∨ ∃ parsed, objects = [parsed] ∧ Piece limit text [parsed] := by
  cases h with
  | one hpiece =>
    cases hpiece with
    | bare hobject => exact .inr ⟨_, rfl, .bare hobject⟩
    | fenced hobjects hfence =>
      refine (fenced_alone hobjects hfence).imp_right ?_
      rintro ⟨parsed, rfl⟩
      exact ⟨parsed, rfl, .fenced hobjects hfence⟩
  | more hpiece _ hrest =>
    left
    cases hpiece with
    | bare hobject => exact ⟨_, _, _, hobject.stripFences _, hobject, List.mem_append_right _ hrest.brace⟩
    | fenced hobjects hfence => exact fenced_tail hobjects hfence (List.mem_append_right _ hrest.brace)

/-- Behind an object that is followed by another the decoder gives up. -/
theorem Several.decode {text : Str} (h : Several F limit text) :
    loads limit (Chat.stripFences text) = (.error .decode : Except LoadsError (Value F)) := by
  obtain ⟨object, parsed, rest, htext, hobject, hbrace⟩ := h
  rw [htext]
  exact loads_append hobject.closes hobject.parses ⟨'}', hbrace, by decide⟩

/-- A listing is decoded whole. -/
theorem listing_forms {text : Str} {objects : List (Arguments F)} (h : Listing limit text objects) :
    IsListing limit (stripFences text) objects := by
  rcases h with h | ⟨body, h, language, before, after, hlanguage, hbefore, hafter, rfl⟩
  · rw [stripFences_bare h.opens (by decide)]
    exact h
  · rw [stripFences_fence _ _ _ hlanguage hbefore fun c hc => ?_, dropClosing_fence h.closes (by decide) hafter]
    · exact h
    · rw [List.head?_append, h.opens] at hc
      cases hc
      decide

/-! ## What the decoder makes of them -/

theorem Envelopes.ne_nil {text : Str} {objects : List (Arguments F)}
    (h : Envelopes limit text objects) : text ≠ [] := by
  rcases h with h | h | ⟨body, h, language, before, after, -, -, -, rfl⟩
  · exact List.ne_nil_of_mem h.brace
  · rintro rfl
    exact absurd h.opens (by simp)
  · exact List.cons_ne_nil _ _

theorem extract_single {value : Str} {parsed : Arguments F} (hne : strip value ≠ [])
    (h : Single limit (strip value) parsed) : extractJsonObject limit value = .ok (.dict parsed) := by
  rw [extractJsonObject, if_neg hne]
  dsimp only
  rw [h.parses]

theorem extract_listing {value : Str} {objects : List (Arguments F)} (hne : strip value ≠ [])
    (h : IsListing limit (stripFences (strip value)) objects) :
    extractJsonObject limit value = .ok (.list (objects.map .dict)) := by
  rw [extractJsonObject, if_neg hne]
  dsimp only
  rw [h.parses]

/-- Neither the whole text nor the part between the outer braces is JSON. -/
theorem extract_several {value : Str} (hne : strip value ≠ []) (h : Several F limit (strip value)) :
    extractJsonObject (F := F) limit value = .ok .none := by
  obtain ⟨object, parsed, rest, htext, hobject, hbrace⟩ := h
  have hdecode : ∀ {tail : Str}, '}' ∈ tail →
      loads limit (object ++ tail) = (.error .decode : Except LoadsError (Value F)) :=
    fun htail => loads_append hobject.closes hobject.parses ⟨'}', htail, by decide⟩
  rw [extractJsonObject, if_neg hne]
  dsimp only
  rw [htext, hdecode hbrace]
  obtain ⟨front, tail, rfl, htail⟩ := split_brace hbrace
  have hopen : (object ++ front).head? = some '{' := by rw [List.head?_append, hobject.opens]; rfl
  dsimp only
  rw [← List.append_assoc, braceMatch_append hopen htail]
  dsimp only
  rw [loadsOrNone, List.append_assoc, hdecode (by simp)]

/-! ## Answers -/

variable (F limit) in
/-- The answer an output leads to, if it leads to one. -/
def answer (output : Str) : Option Str :=
  match actionFromModelOutput (F := F) limit output with
  | .ok (.final content) => some (answerText content output)
  | _ => none

omit [Python F] in
theorem isStr_iff {text : Str} {value : Value F} : value.isStr text = true ↔ value = .str text := by
  cases value <;> simp [Value.isStr]

theorem answerText_strip (output : Str) : answerText (strip output) output = strip output := by
  rw [answerText]
  split <;> rfl

theorem answerText_ne_nil {content output : Str} (h : strip output ≠ []) : answerText content output ≠ [] := by
  rw [answerText]
  split
  next => exact h
  next hcontent => exact hcontent

theorem action_of_object {output : Str} {parsed : Arguments F}
    (h : extractJsonObject limit output = .ok (.dict parsed)) :
    actionFromModelOutput limit output = actionOfObject parsed output := by
  rw [actionFromModelOutput, h]
  rfl

/-- What is no object is final as it came. -/
theorem action_of_other {output : Str} {value : Value F} (h : extractJsonObject limit output = .ok value)
    (hvalue : ∀ parsed, value ≠ .dict parsed) :
      actionFromModelOutput (F := F) limit output = .ok (.final (strip output)) := by
  rw [actionFromModelOutput, h, Except.ok_bind]
  split
  next parsed => exact absurd rfl (hvalue parsed)
  next => rfl

theorem answer_of_other {output : Str} {value : Value F} (h : extractJsonObject limit output = .ok value)
    (hvalue : ∀ parsed, value ≠ .dict parsed) : answer F limit output = some (strip output) := by
  rw [answer, action_of_other h hvalue]
  exact congrArg some (answerText_strip output)

theorem actionOfObject_toolCall {parsed : Arguments F}
    (htype : argument parsed "type" = .str "tool_call") (output : Str) :
    actionOfObject parsed output = .ok (.toolCall (argument parsed "tool")
      ((argument parsed "arguments").or (.dict []))) := by
  rw [actionOfObject, looksLikeInternalToolEnvelope, htype]
  rfl

theorem actionOfObject_envelope {parsed : Arguments F} (h : looksLikeInternalToolEnvelope (.dict parsed) = .ok true)
    (output : Str) : actionOfObject parsed output = .ok (.invalidInternal (strip output)) := by
  rw [actionOfObject, h]
  rfl

/-- The text a final object shows. -/
def finalContent (parsed : Arguments F) (output : Str) : Str :=
  match argument parsed "content" with
  | .str content => strip content
  | _ => strip output

theorem actionOfObject_final {parsed : Arguments F} (htype : argument parsed "type" = .str "final") (output : Str) :
    actionOfObject parsed output = .ok (.final (finalContent parsed output)) := by
  rw [actionOfObject, looksLikeInternalToolEnvelope, htype, finalContent]
  cases argument parsed "content" <;> rfl

/-- An object that is not final shows nothing. -/
theorem answer_of_internal {output : Str} {parsed : Arguments F}
    (h : extractJsonObject limit output = .ok (.dict parsed))
    (henvelope : IsEnvelope parsed) (htype : argument parsed "type" ≠ .str "final") : answer F limit output = none := by
  rw [answer, action_of_object h]
  rcases henvelope with htool | hfinal | hlooks
  · rw [actionOfObject_toolCall htool]
  · exact absurd hfinal htype
  · rw [actionOfObject_envelope hlooks]

theorem answer_of_final {output : Str} {parsed : Arguments F} (h : extractJsonObject limit output = .ok (.dict parsed))
    (htype : argument parsed "type" = .str "final") :
    answer F limit output = some (answerText (finalContent parsed output) output) := by
  rw [answer, action_of_object h, actionOfObject_final htype]

/-- A final object is shown by its content exactly when it has one that is no object. -/
theorem final_shown_iff {output : Str} {parsed : Arguments F} {objects : List (Arguments F)}
    (henvelopes : Envelopes limit (strip output) objects) :
    (∀ others : List (Arguments F), ¬ Envelopes limit (answerText (finalContent parsed output) output) others) ↔
      ∃ content, argument parsed "content" = .str content ∧ strip content ≠ [] ∧
        ∀ others : List (Arguments F), ¬ Envelopes limit (strip content) others := by
  constructor
  · intro hhidden
    have hshown : answerText (finalContent parsed output) output ≠ strip output := fun h => by
      rw [h] at hhidden
      exact hhidden objects henvelopes
    rw [finalContent] at hhidden hshown
    split at hhidden
    next content hcontent =>
      rw [hcontent] at hshown
      have hne : strip content ≠ [] := fun h => hshown (if_pos h)
      rw [answerText, if_neg hne] at hhidden
      exact ⟨content, hcontent, hne, hhidden⟩
    next => exact absurd henvelopes (answerText_strip output ▸ hhidden objects)
  · rintro ⟨content, hcontent, hne, hhidden⟩
    rw [finalContent, hcontent]
    dsimp only
    rw [answerText, if_neg hne]
    exact hhidden

/-- **Objects stay hidden exactly when one alone has something to say**, whatever they are. -/
theorem answer_hidden_iff {output : Str} {objects : List (Arguments F)} (h : Envelopes limit (strip output) objects) :
    (∀ text, answer F limit output = some text → Shown limit objects text) ↔ Sole F limit (strip output) := by
  have hne := h.ne_nil
  -- an output shown as it came is no content
  have hexposed : answer F limit output = some (strip output) →
      ¬ ∀ text, answer F limit output = some text → Shown limit objects text :=
    fun hanswer hshown => (hshown _ hanswer).2 objects h
  obtain hpieces | hlisting := id h
  · rcases pieces_forms hpieces with hseveral | ⟨parsed, rfl, hpiece⟩
    · refine iff_of_false (hexposed (answer_of_other (extract_several hne hseveral) fun _ h => by cases h)) ?_
      rintro ⟨parsed, hpiece, -⟩
      have hdecode := hseveral.decode
      rw [hpiece.single.parses] at hdecode
      cases hdecode
    · have hextract := extract_single hne hpiece.single
      by_cases htype : argument parsed "type" = .str "final"
      · constructor
        · exact fun hshown => ⟨parsed, hpiece, fun _ =>
            (final_shown_iff h).1 (hshown _ (answer_of_final hextract htype)).2⟩
        · rintro ⟨parsed', hpiece', hfinal⟩ text htext
          have hparses := hpiece'.single.parses
          rw [hpiece.single.parses] at hparses
          cases hparses
          obtain ⟨content, hcontent, hcontentNe, hhidden⟩ := hfinal htype
          rw [answer_of_final hextract htype] at htext
          cases htext
          refine ⟨⟨parsed, List.mem_singleton_self _, htype, content, hcontent, ?_⟩,
            (final_shown_iff h).2 ⟨content, hcontent, hcontentNe, hhidden⟩⟩
          rw [finalContent, hcontent]
          exact if_neg hcontentNe
      · refine iff_of_true (fun text htext => ?_) ⟨parsed, hpiece, fun hfinal => absurd hfinal htype⟩
        rw [answer_of_internal hextract hpiece.single.envelope htype] at htext
        cases htext
  · have hform := listing_forms hlisting
    refine iff_of_false (hexposed (answer_of_other (extract_listing hne hform) fun _ h => by cases h)) ?_
    rintro ⟨parsed, hpiece, -⟩
    have hparses := hform.parses
    rw [hpiece.single.parses] at hparses
    cases hparses

end SlurmWeb.Chat
