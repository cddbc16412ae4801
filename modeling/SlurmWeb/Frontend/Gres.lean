import SlurmWeb.Slurmrestd.Gres
import SlurmWeb.Lib.JsNumber

/-!
# GPUs of a list of resources (frontend/src/composables/GatewayAPI.ts)

The frontend reads the lists that the backend counts GPUs in (Slurmrestd/Gres.lean) twice more: once cut at every comma,
with `=` for the last colon and `gres/gpu` for the name, once at the commas outside of parentheses.

| here | there |
| --- | --- |
| `countGPUTRESRequest` | `countGPUTRESRequest` (:821) |
| `splitGres`, `dropIndex`, `gpumatcher` | the expressions of `getNodeGPUFromGres` (:979) |
| `getNodeGPUFromGres` | :982 |

* `countGPUTRESRequest_eq`, `nodeGPUs_eq` — both read from the entries.
* `gpu_counters_agree` — the three counts of a list, up to 2^53.
* `large_count_rounded` — beyond, the backend counts on and a number of JavaScript does not.
-/

namespace SlurmWeb.Frontend

open Strings Slurmrestd Js

/-! ## The counters -/

/-- `tres.replace('=', ':')` -/
def replaceEquals : Str → Str
  | [] => []
  | c :: text => if c = '=' then ':' :: text else c :: replaceEquals text

/-- `parseInt` of a field that may be missing. -/
def parseField : Option Str → Number
  | some text => parseInt text
  | none => .nan

/-- The body of the loop over the pieces (:823). -/
def addPiece (total : Number) (piece : Str) : Number :=
  let items := (replaceEquals (beforeFirst '(' piece)).splitOn ':'
  if items.headD [] ∉ ["gpu".toList, "gres/gpu".toList] then total
  else if items.length = 2 then add total (parseField items[1]?)
  else add total (parseField items[2]?)

/-- `countGPUTRESRequest` (:821) -/
def countGPUTRESRequest (tresRequest : Str) : Number := (tresRequest.splitOn ',').foldl addPiece (.finite 0)

structure NodeGPU where
  model : Str
  count : Number

/-- `[^()]*\)` matches. -/
def closesParen (text : Str) : Bool := (text.dropWhile fun c => c ≠ '(' && c ≠ ')').head? == some ')'

/-- `fullGres.split(/,(?![^()]*\))/)` -/
def splitGres : Str → List Str
  | [] => [[]]
  | c :: text =>
    if c = ',' ∧ closesParen text = false then [] :: splitGres text
    else (splitGres text).modifyHead (c :: ·)

/-- `gres.replace(/\([^)]*\)$/g, '')` -/
def dropIndex : Str → Str
  | [] => []
  | c :: text => if c = '(' ∧ text.dropWhile (· ≠ ')') = [')'] then [] else c :: dropIndex text

/-- `/^gpu(?::([^:]*))?(?::([^:]*))$/`: the model, if there is one, and the end. -/
def gpumatcher (text : Str) : Option (Option Str × Str) :=
  match text.splitOn ':' with
  | [name, last] => if name = "gpu".toList then some (none, last) else none
  | [name, model, last] => if name = "gpu".toList then some (some model, last) else none
  | _ => none

/-- What a resource adds to the results (:985). -/
def nodeGPU? (gres : Str) : Option NodeGPU :=
  (gpumatcher (dropIndex gres)).map fun matched =>
    let count := if '(' ∈ matched.2 then parseInt (beforeFirst '(' matched.2) else parseInt matched.2
    ⟨if matched.1.getD [] = [] then "unknown" else matched.1.getD [], count⟩

/-- `getNodeGPUFromGres` (:982) -/
def getNodeGPUFromGres (fullGres : Str) : List NodeGPU :=
  if fullGres = [] then [] else (splitGres fullGres).filterMap nodeGPU?

/-- The sum of the counts (views/NodeView.vue :199). -/
def nodeGPUs (fullGres : Str) : Number := sum ((getNodeGPUFromGres fullGres).map NodeGPU.count)

/-! ## Pieces at every comma -/

variable {entry : Entry}

theorem replaceEquals_append {text : Str} (h : '=' ∉ text) (rest : Str) :
    replaceEquals (text ++ rest) = text ++ replaceEquals rest := by
  induction text with
  | nil => rfl
  | cons c text ih =>
    have hc : c ≠ '=' := fun hc => h (hc ▸ List.mem_cons_self)
    rw [List.cons_append, replaceEquals, if_neg hc, ih fun hmem => h (List.mem_cons_of_mem _ hmem)]
    rfl

theorem mem_of_replaceEquals {c : Char} (hc : c ≠ ':') : ∀ {text : Str}, c ∈ replaceEquals text → c ∈ text
  | [], h => h
  | d :: text, h => by
    rw [replaceEquals] at h
    split at h
    · rcases List.mem_cons.1 h with heq | h
      · exact absurd heq hc
      · exact List.mem_cons_of_mem _ h
    · rcases List.mem_cons.1 h with rfl | h
      · exact List.mem_cons_self
      · exact List.mem_cons_of_mem _ (mem_of_replaceEquals hc h)

/-- An equals sign before the count is a colon. -/
theorem replaceEquals_core (sign : Sign) : replaceEquals (entry.core sign) = entry.core .colon := by
  have hlabel : '=' ∉ entry.label := Entry.label_free (by decide)
  have hcount : '=' ∉ entry.count := entry.count_digits.free (by decide)
  have hkeep : replaceEquals entry.count = entry.count := by
    have := replaceEquals_append hcount []
    simpa [replaceEquals] using this
  rw [Entry.core, replaceEquals_append hlabel]
  cases sign with
  | colon => rw [Sign.text, replaceEquals, if_neg (by decide), hkeep]; rfl
  | equals => rfl

theorem addPiece_free {piece : Str} (h : 'g' ∉ piece) (total : Number) : addPiece total piece = total := by
  obtain ⟨first, rest, hpieces⟩ :=
    List.exists_cons_of_ne_nil (List.splitOn_ne_nil ':' (replaceEquals (beforeFirst '(' piece)))
  have hfirst : 'g' ∉ first := fun hg => h (beforeFirst_subset 'g' (mem_of_replaceEquals (by decide)
    (splitOn_subset (hpieces ▸ List.mem_cons_self) 'g' hg)))
  rw [addPiece, hpieces]
  refine if_pos fun hmem => ?_
  rw [List.headD_cons, List.mem_pair] at hmem
  rcases hmem with rfl | rfl <;> exact hfirst (by decide)

theorem addPiece_core (sign : Sign) {first : Str} (hfirst : ∀ c ∈ first.head?, c = '(') (total : Number) :
    addPiece total (entry.core sign ++ first) =
      if entry.name ∈ ["gpu".toList, "gres/gpu".toList] then add total (parseInt entry.count) else total := by
  rw [addPiece, Entry.beforeParen sign hfirst, replaceEquals_core, Entry.fields_core, List.headD_cons]
  by_cases hname : entry.name ∈ ["gpu".toList, "gres/gpu".toList]
  · rw [if_neg (not_not.2 hname), if_pos hname]
    cases entry.type <;> rfl
  · rw [if_pos hname, if_neg hname]

theorem parseInt_count (h : entry.units ≤ 2 ^ 53) : parseInt entry.count = .finite entry.units := by
  rw [parseInt_digits entry.count_digits.1 entry.count_digits.2]
  exact ofInt_exact h

theorem foldl_addPiece {f : Str → Nat} : ∀ {pieces : List Str} {a : Nat}, a + (pieces.map f).sum ≤ 2 ^ 53 →
    (∀ piece ∈ pieces, ∀ total : Nat, total + f piece ≤ 2 ^ 53 →
      addPiece (.finite total) piece = .finite ((total + f piece : Nat) : Int)) →
    pieces.foldl addPiece (.finite a) = .finite ((a + (pieces.map f).sum : Nat) : Int)
  | [], _, _, _ => rfl
  | piece :: pieces, a, hsmall, h => by
    rw [List.map_cons, List.sum_cons] at hsmall
    obtain ⟨hpiece, hpieces⟩ := List.forall_mem_cons.1 h
    rw [List.foldl_cons, hpiece a (by omega), foldl_addPiece (by omega) hpieces, List.map_cons,
      List.sum_cons, Nat.add_assoc]

/-- The names that `countGPUTRESRequest` counts. -/
def gpuNames : List Str := ["gpu", "gres/gpu"]

/-- What a piece adds to zero. -/
def ownCount (piece : Str) : Nat := match addPiece (.finite 0) piece with
  | .finite n => n.toNat
  | _ => 0

theorem ownCount_core (sign : Sign) {first : Str} (hfirst : ∀ c ∈ first.head?, c = '(')
    (hsmall : entry.name ∈ gpuNames → entry.units ≤ 2 ^ 53) :
    ownCount (entry.core sign ++ first) = if entry.name ∈ gpuNames then entry.units else 0 := by
  rw [ownCount, addPiece_core sign hfirst, ← gpuNames]
  by_cases hname : entry.name ∈ gpuNames
  · have hadd : add (.finite 0) (.finite entry.units) = .finite ((0 + entry.units : Nat) : Int) :=
      @add_exact 0 entry.units (by rw [Nat.zero_add]; exact hsmall hname)
    rw [if_pos hname, if_pos hname, parseInt_count (hsmall hname), hadd]
    simp
  · rw [if_neg hname, if_neg hname]
    rfl

theorem countGPUTRESRequest_eq {entries : List (Sign × Entry)}
    (hsmall : unitsNamed gpuNames (entries.map Prod.snd) ≤ 2 ^ 53) :
    countGPUTRESRequest (gresList entries) = .finite (unitsNamed gpuNames (entries.map Prod.snd)) := by
  have hbound : ∀ e ∈ entries, e.2.name ∈ gpuNames → e.2.units ≤ 2 ^ 53 := fun e he hname => by
    refine le_trans ?_ hsmall
    refine List.le_sum_of_mem ?_
    rw [List.map_map]
    exact List.mem_map.2 ⟨e, he, if_pos hname⟩
  have hsum : ((gresList entries).splitOn ',' |>.map ownCount).sum = unitsNamed gpuNames (entries.map Prod.snd) := by
    rw [sum_pieces (fun piece hg => by rw [ownCount, addPiece_free hg]; rfl) fun e he first hfirst =>
      ownCount_core e.1 hfirst (hbound e he), unitsNamed, List.map_map]
    rfl
  have hfold := @foldl_addPiece ownCount ((gresList entries).splitOn ',') 0 (by omega) fun piece
    hpiece total htotal => by
    rcases pieces_cases hpiece with ⟨e, he, first, rfl, hfirst⟩ | hg
    · rw [ownCount_core e.1 hfirst (hbound e he)] at htotal ⊢
      rw [addPiece_core e.1 hfirst, ← gpuNames]
      by_cases hname : e.2.name ∈ gpuNames
      · rw [if_pos hname] at htotal
        rw [if_pos hname, if_pos hname, parseInt_count (hbound e he hname), add_exact htotal]
      · rw [if_neg hname, if_neg hname, Nat.add_zero]
    · have hzero : ownCount piece = 0 := by rw [ownCount, addPiece_free hg]; rfl
      rw [hzero, addPiece_free hg, Nat.add_zero]
  rw [countGPUTRESRequest, ← hsum]
  simpa using hfold

/-! ## Pieces outside of parentheses -/

theorem closesParen_append {text : Str} (h : '(' ∉ text ∧ ')' ∉ text) (rest : Str) :
    closesParen (text ++ rest) = closesParen rest := by
  rw [closesParen, List.dropWhile_append_of_pos, ← closesParen]
  intro c hc
  have hopen : c ≠ '(' := fun heq => h.1 (heq ▸ hc)
  have hclose : c ≠ ')' := fun heq => h.2 (heq ▸ hc)
  simp [hopen, hclose]

theorem splitGres_append {text : Str} (h : ',' ∉ text) (rest : Str) :
    splitGres (text ++ rest) = (splitGres rest).modifyHead (text ++ ·) := by
  induction text with
  | nil =>
    change splitGres rest = _
    cases splitGres rest <;> rfl
  | cons c text ih =>
    have hc : ¬ (c = ',' ∧ closesParen (text ++ rest) = false) := fun hboth => h (hboth.1 ▸ List.mem_cons_self)
    rw [List.cons_append, splitGres, if_neg hc, ih fun hmem => h (List.mem_cons_of_mem _ hmem),
      List.modifyHead_modifyHead]
    rfl

/-- A comma before a closing parenthesis does not cut. -/
theorem splitGres_body {body : Str} (h : '(' ∉ body ∧ ')' ∉ body) (rest : Str) :
    splitGres (body ++ ')' :: rest) = (splitGres rest).modifyHead (body ++ ')' :: ·) := by
  induction body with
  | nil => exact @splitGres_append [')'] (by decide) rest
  | cons c body ih =>
    have hcloses : closesParen (body ++ ')' :: rest) = true := by
      rw [closesParen_append ⟨fun hmem => h.1 (List.mem_cons_of_mem _ hmem), fun hmem =>
        h.2 (List.mem_cons_of_mem _ hmem)⟩]
      rfl
    have hc : ¬ (c = ',' ∧ closesParen (body ++ ')' :: rest) = false) := fun hboth => by
      rw [hcloses] at hboth
      cases hboth.2
    rw [List.cons_append, splitGres, if_neg hc,
      ih ⟨fun hmem => h.1 (List.mem_cons_of_mem _ hmem), fun hmem => h.2 (List.mem_cons_of_mem _ hmem)⟩,
      List.modifyHead_modifyHead]
    rfl

theorem body_free {body : Str} (h : Body body) : '(' ∉ body ∧ ')' ∉ body := by
  rcases h with rfl | hall
  · decide
  · exact ⟨fun hmem => absurd (hall '(' hmem) (by decide), fun hmem => absurd (hall ')' hmem) (by decide)⟩

theorem splitGres_render (sign : Sign) (rest : Str) :
    splitGres (entry.render sign ++ rest) = (splitGres rest).modifyHead (entry.render sign ++ ·) := by
  have hcore : ',' ∉ entry.core sign := Entry.core_free (by decide) sign
  rw [Entry.render, List.append_assoc, splitGres_append hcore]
  cases hsuffix : entry.suffix with
  | none => rw [Entry.suffixText, hsuffix]; simp
  | some suffix =>
    obtain ⟨tag, body⟩ := suffix
    have htag : ',' ∉ '(' :: tag.text ++ [':'] := by cases tag <;> decide
    have htext : entry.suffixText ++ rest = ('(' :: tag.text ++ [':']) ++ (body ++ ')' :: rest) := by
      rw [Entry.suffixText, hsuffix]
      simp
    rw [htext, splitGres_append htag, splitGres_body (body_free (entry.suffix_body _ hsuffix)),
      List.modifyHead_modifyHead, List.modifyHead_modifyHead, Entry.suffixText, hsuffix]
    congr 1
    funext text
    simp

theorem gresList_cons_cons (e other : Sign × Entry) (entries : List (Sign × Entry)) :
    gresList (e :: other :: entries) = e.2.render e.1 ++ ',' :: gresList (other :: entries) := by
  rw [gresList, List.map_cons, List.map_cons, List.intercalate_cons_cons]
  simp [gresList]

/-- An entry opens a parenthesis before one is closed. -/
theorem closesParen_render (sign : Sign) {rest : Str} (h : closesParen rest = false) :
    closesParen (entry.render sign ++ rest) = false := by
  rw [Entry.render, List.append_assoc,
    closesParen_append ⟨Entry.core_free (by decide) sign, Entry.core_free (by decide) sign⟩,
    Entry.suffixText]
  split
  next => rfl
  next => exact h

theorem gresList_opens (entries : List (Sign × Entry)) : closesParen (gresList entries) = false := by
  induction entries with
  | nil => rfl
  | cons e entries ih =>
    cases entries with
    | nil =>
      have hrender := @closesParen_render e.2 e.1 [] rfl
      simpa [gresList] using hrender
    | cons other entries =>
      rw [gresList_cons_cons]
      exact closesParen_render e.1 ((@closesParen_append [','] (by decide) _).trans ih)

theorem splitGres_gresList {entries : List (Sign × Entry)} (h : entries ≠ []) :
    splitGres (gresList entries) = entries.map fun e => e.2.render e.1 := by
  induction entries with
  | nil => exact absurd rfl h
  | cons e entries ih =>
    cases entries with
    | nil =>
      have hrender := @splitGres_render e.2 e.1 []
      simpa [gresList, splitGres] using hrender
    | cons other entries =>
      rw [gresList_cons_cons, splitGres_render, splitGres, if_pos ⟨rfl, gresList_opens _⟩, ih (List.cons_ne_nil _ _),
        List.modifyHead_cons, List.append_nil]
      rfl

/-! ## The count of each -/

theorem dropIndex_append {text : Str} (h : '(' ∉ text) (rest : Str) :
    dropIndex (text ++ rest) = text ++ dropIndex rest := by
  induction text with
  | nil => rfl
  | cons c text ih =>
    have hc : ¬ (c = '(' ∧ (text ++ rest).dropWhile (· ≠ ')') = [')']) := fun hboth => h (hboth.1 ▸ List.mem_cons_self)
    rw [List.cons_append, dropIndex, if_neg hc, ih fun hmem => h (List.mem_cons_of_mem _ hmem)]
    rfl

theorem dropIndex_render (sign : Sign) : dropIndex (entry.render sign) = entry.core sign := by
  have hcore : '(' ∉ entry.core sign := Entry.core_free (by decide) sign
  rw [Entry.render, dropIndex_append hcore, Entry.suffixText]
  split
  next tag body hsuffix =>
    have hfree : ∀ c ∈ tag.text ++ ':' :: body, decide (c ≠ ')') = true := fun c hc => decide_eq_true fun heq => by
      subst heq
      rcases List.mem_append.1 hc with hc | hc
      · cases tag <;> revert hc <;> decide
      · rcases List.mem_cons.1 hc with hc | hc
        · cases hc
        · exact (body_free (entry.suffix_body _ hsuffix)).2 hc
    have hend : (tag.text ++ ':' :: body ++ [')']).dropWhile (· ≠ ')') = [')'] := by
      rw [List.dropWhile_append_of_pos hfree]
      rfl
    rw [List.cons_append, List.cons_append, dropIndex, if_pos ⟨rfl, hend⟩, List.append_nil]
  next => exact List.append_nil _

theorem nodeGPU?_render (hsmall : entry.name = "gpu".toList → entry.units ≤ 2 ^ 53) :
    (nodeGPU? (entry.render .colon)).map NodeGPU.count =
      if entry.name = "gpu".toList then some (.finite entry.units) else none := by
  have hcount : '(' ∉ entry.count := entry.count_digits.free (by decide)
  rw [nodeGPU?, dropIndex_render, gpumatcher, Entry.fields_core]
  by_cases hname : entry.name = "gpu".toList
  · rw [if_pos hname]
    cases entry.type with
    | none =>
      simp only [Option.toList_none, List.nil_append, if_pos hname, Option.map_some, if_neg hcount,
        parseInt_count (hsmall hname)]
    | some type =>
      simp only [Option.toList_some, List.cons_append, List.nil_append, if_pos hname, Option.map_some, if_neg hcount,
        parseInt_count (hsmall hname)]
  · rw [if_neg hname]
    cases entry.type with
    | none => simp only [Option.toList_none, List.nil_append, if_neg hname, Option.map_none]
    | some type => simp only [Option.toList_some, List.cons_append, List.nil_append, if_neg hname, Option.map_none]

theorem gresList_ne_nil {entries : List (Sign × Entry)} (h : entries ≠ []) : gresList entries ≠ [] := by
  intro hnil
  have hsplit := splitGres_gresList h
  obtain ⟨e, entries, rfl⟩ := List.exists_cons_of_ne_nil h
  rw [hnil, List.map_cons] at hsplit
  have hrender : e.2.render e.1 = [] := (List.cons.inj hsplit).1.symm
  have hlabel : e.2.label = [] := by
    rw [Entry.render, Entry.core] at hrender
    simp at hrender
  rw [Entry.label] at hlabel
  split at hlabel
  · simp at hlabel
  · exact e.2.name_word.1 hlabel

/-- The units of the entries named `gpu`, one by one. -/
def gpuUnits (entries : List Entry) : List Nat :=
  entries.filterMap fun entry => if entry.name = "gpu".toList then some entry.units else none

theorem sum_gpuUnits (entries : List Entry) : (gpuUnits entries).sum = unitsNamed ["gpu"] entries := by
  induction entries with
  | nil => rfl
  | cons entry entries ih =>
    have hcons : unitsNamed ["gpu"] (entry :: entries) =
        (if entry.name ∈ ["gpu".toList] then entry.units else 0) + unitsNamed ["gpu"] entries := List.sum_cons
    rw [hcons, gpuUnits, List.filterMap_cons]
    by_cases hname : entry.name = "gpu".toList
    · rw [if_pos hname, if_pos (List.mem_singleton.2 hname), ← ih]
      rfl
    · rw [if_neg hname, if_neg fun hmem => hname (List.mem_singleton.1 hmem), Nat.zero_add, ← ih]
      rfl

theorem counts_filterMap {entries : List Entry} (hbound : ∀ entry ∈ entries, entry.name = "gpu".toList →
    entry.units ≤ 2 ^ 53) :
    ((entries.map fun entry => entry.render .colon).filterMap nodeGPU?).map NodeGPU.count =
      (gpuUnits entries).map fun n : Nat => Number.finite n := by
  rw [List.filterMap_map, List.map_filterMap, gpuUnits, List.map_filterMap]
  refine List.filterMap_congr fun entry he => ?_
  rw [Function.comp_apply, nodeGPU?_render (hbound entry he)]
  split <;> rfl

theorem nodeGPUs_eq {entries : List Entry} (hsmall : unitsNamed ["gpu"] entries ≤ 2 ^ 53) :
    nodeGPUs (gresList (entries.map (Sign.colon, ·))) = .finite (unitsNamed ["gpu"] entries) := by
  have hbound : ∀ entry ∈ entries, entry.name = "gpu".toList → entry.units ≤ 2 ^ 53 := fun entry he hname => by
    refine le_trans (List.le_sum_of_mem ?_) hsmall
    exact List.mem_map.2 ⟨entry, he, if_pos (List.mem_singleton.2 hname)⟩
  have hread : (getNodeGPUFromGres (gresList (entries.map (Sign.colon, ·)))).map NodeGPU.count =
      (gpuUnits entries).map fun n : Nat => Number.finite n := by
    rw [getNodeGPUFromGres]
    rcases eq_or_ne entries [] with rfl | hne
    · rfl
    · have hsome : entries.map (Sign.colon, ·) ≠ [] := by simpa using hne
      rw [if_neg (gresList_ne_nil hsome), splitGres_gresList hsome, List.map_map]
      exact counts_filterMap hbound
  rw [nodeGPUs, hread, sum_exact (by rwa [sum_gpuUnits]), sum_gpuUnits]

/-! ## The three counters -/

theorem unitsNamed_mono {names more : List Str} (h : ∀ name ∈ names, name ∈ more) (entries : List Entry) :
    unitsNamed names entries ≤ unitsNamed more entries := by
  refine List.sum_le_sum fun entry _ => ?_
  by_cases hname : entry.name ∈ names
  · rw [if_pos hname, if_pos (h _ hname)]
  · rw [if_neg hname]
    exact Nat.zero_le _

/-- The backend's and the node page's count are the entries named `gpu`; that of a job's request, whatever
sign stands before the counts, those named `gres/gpu` too. -/
theorem gpu_counters_agree {entries : List Entry} (hsmall : unitsNamed gpuNames entries ≤ 2 ^ 53)
    (hshort : ∀ entry ∈ entries, entry.Short) :
    nodeGresExtractGpus (gresList (entries.map (Sign.colon, ·))) = .ok (unitsNamed ["gpu"] entries : Int) ∧
      nodeGPUs (gresList (entries.map (Sign.colon, ·))) = .finite (unitsNamed ["gpu"] entries) ∧
      (∀ signed : List (Sign × Entry), signed.map Prod.snd = entries →
        countGPUTRESRequest (gresList signed) = .finite (unitsNamed gpuNames entries)) ∧
      ((∀ entry ∈ entries, entry.name ≠ "gres/gpu".toList) →
        unitsNamed gpuNames entries = unitsNamed ["gpu"] entries) := by
  refine ⟨nodeGresExtractGpus_eq hshort,
    nodeGPUs_eq ((unitsNamed_mono (by decide) entries).trans hsmall), ?_, fun hnone => ?_⟩
  · rintro signed rfl
    exact countGPUTRESRequest_eq hsmall
  · refine congrArg List.sum (List.map_congr_left fun entry he => ?_)
    have hiff : entry.name ∈ gpuNames ↔ entry.name ∈ ["gpu".toList] := by
      rw [gpuNames, List.mem_pair, List.mem_singleton]
      exact or_iff_left (hnone entry he)
    simp only [hiff]

/-- A GPU of a type, an index behind the count. -/
def h100 : Entry where
  name := "gpu"
  type := some "h100"
  count := "2"
  suffix := some (.index, "0,2")
  name_word := by decide
  type_word _ ht := Option.some.inj ht ▸ (by decide : Word "h100")
  count_digits := by decide
  suffix_body _ hs := Option.some.inj hs ▸ (by decide : Body "0,2")

/-- `gpu:count` -/
def gpus (count : Str) (h : Digits count) : Entry where
  name := "gpu"
  type := none
  count := count
  suffix := none
  name_word := by decide
  type_word _ ht := by cases ht
  count_digits := h
  suffix_body _ hs := by cases hs

theorem gpu_counters_agree_h100 : nodeGresExtractGpus "gpu:h100:2(IDX:0,2),gpu:4" = .ok 6 ∧
    nodeGPUs "gpu:h100:2(IDX:0,2),gpu:4" = .finite 6 ∧ countGPUTRESRequest "gpu:h100=2(IDX:0,2),gpu:4" = .finite 6 := by
  obtain ⟨hbackend, hpage, hrequest, -⟩ := @gpu_counters_agree [h100, gpus "4" (by decide)] (by decide)
    (by
      rintro entry hentry -
      simp only [List.mem_cons, List.not_mem_nil, or_false] at hentry
      rcases hentry with rfl | rfl <;> decide)
  exact ⟨hbackend, hpage, hrequest [(.equals, h100), (.colon, gpus "4" (by decide))] rfl⟩

/-- One more than 2^53. -/
def manyGpus : Entry := gpus "9007199254740993" (by decide)

theorem large_count_rounded : ¬ ∀ entries : List Entry, (∀ entry ∈ entries, entry.name ≠ "gres/gpu".toList) →
    nodeGresExtractGpus (gresList (entries.map (Sign.colon, ·))) = .ok (unitsNamed ["gpu"] entries : Int) ∧
      nodeGPUs (gresList (entries.map (Sign.colon, ·))) = .finite (unitsNamed ["gpu"] entries) ∧
      countGPUTRESRequest (gresList (entries.map (Sign.colon, ·))) = .finite (unitsNamed ["gpu"] entries) := by
  intro hall
  have hcount := (hall [manyGpus] (by decide)).2.2
  exact absurd hcount (by decide)

end SlurmWeb.Frontend
