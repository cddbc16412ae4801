import SlurmWeb.Frontend.JobFilters
import SlurmWeb.Frontend.JobOrder

/-!
# Pages and their addresses (frontend/src/stores/runtime, frontend/src/views)

A page keeps its filters, its order and its page number in a store, writes them to the query of its
address, and reads them back when the address changes or the page is opened.

| here | there |
| --- | --- |
| `parsePositivePage`, `parsePageSize`, `lastPage` | composables/Pagination.ts :13, :19, :27 |
| `HistoryStore.hydrate`, `HistoryStore.query` | stores/runtime/jobsHistory.ts :84, :132 |
| `HistoryView`, `HistoryView.Step` | views/JobsHistoryView.vue :83-154 |
| `JobsStore.query`, `JobsStore.mounted` | stores/runtime/jobs.ts :154, views/JobsView.vue :318 |

The router writes a number as `String` does, which is a parameter, and a push of the query that is already there
changes nothing. A number is whole or none of the finite ones: a fraction, which `Number(raw)` keeps of the
Job ID filter and `parseInt` does not read back, is left out.

* `history_agrees` — the history page and its address agree in every run.
* `jobs_restored_iff` — which jobs pages their address opens again.
-/

namespace SlurmWeb.UrlState

open Strings IsoTime Js Frontend JobOrder

/-! ## Queries -/

/-- `LocationQueryValue | LocationQueryValue[]` -/
inductive QueryValue
  | null
  | text (value : Str)
  | many (values : List (Option Str))
deriving DecidableEq

abbrev LocationQuery : Type := List (Str × QueryValue)

/-- `typeof query[key] === 'string'` -/
def string? (query : LocationQuery) (key : Str) : Option Str :=
  match Dict.lookup query key with
  | some (.text value) => some value
  | _ => none

/-- The query of an object whose absent fields are left out. -/
def present (fields : List (Str × Option Str)) : LocationQuery :=
  fields.filterMap fun field => field.2.map fun value => (field.1, .text value)

theorem lookup_none {query : LocationQuery} {key : Str} (h : ∀ e ∈ query, e.1 ≠ key) :
    Dict.lookup query key = none := by
  induction query with
  | nil => rfl
  | cons e query ih =>
    rw [Dict.lookup, if_neg (h e List.mem_cons_self)]
    exact ih fun e' he' => h e' (List.mem_cons_of_mem _ he')

/-- A field is found as it was written. -/
theorem lookup_present : ∀ {fields : List (Str × Option Str)}, (fields.map Prod.fst).Nodup →
    ∀ {key : Str} {value : Option Str},
    (key, value) ∈ fields → Dict.lookup (present fields) key = value.map .text
  | [], _, _, _, hm => by cases hm
  | (key', value') :: fields, h, key, value, hm => by
    rw [List.map_cons, List.nodup_cons] at h
    have habsent : key' ∉ fields.map Prod.fst := h.1
    have hrest : ∀ e ∈ present fields, e.1 ≠ key' := by
      intro e he heq
      obtain ⟨field, hfield, hvalue⟩ := List.mem_filterMap.1 he
      obtain ⟨v, -, rfl⟩ := Option.map_eq_some_iff.1 hvalue
      exact habsent (List.mem_map.2 ⟨field, hfield, heq⟩)
    rcases List.mem_cons.1 hm with heq | hm
    · obtain ⟨rfl, rfl⟩ := Prod.mk.inj heq
      cases value with
      | none =>
        have htail : present ((key, none) :: fields) = present fields := rfl
        rw [htail, lookup_none hrest, Option.map_none]
      | some v =>
        have hcons : present ((key, some v) :: fields) = (key, .text v) :: present fields := rfl
        rw [hcons, Dict.lookup, if_pos rfl, Option.map_some]
    · have hne : key' ≠ key := by
        rintro rfl
        exact habsent (List.mem_map.2 ⟨_, hm, rfl⟩)
      have htail := lookup_present h.2 hm
      cases value' with
      | none => exact htail
      | some v =>
        have hcons : present ((key', some v) :: fields) = (key', .text v) :: present fields := rfl
        rw [hcons, Dict.lookup, if_neg hne]
        exact htail

theorem string_present {fields : List (Str × Option Str)} (h : (fields.map Prod.fst).Nodup)
    {key : Str} {value : Option Str} (hm : (key, value) ∈ fields) : string? (present fields) key = value := by
  rw [string?, lookup_present h hm]
  cases value <;> rfl

/-! ## Numbers -/

def pageSizeOptions : List Nat := [10, 20, 50, 100]

/-- `PageSizeOption` -/
abbrev PageSize : Type := { n : Nat // n ∈ pageSizeOptions }

def defaultPageSize : PageSize := ⟨20, by decide⟩

/-- `Math.max(parsed, 1)`, and 1 for what is no number. -/
def atLeastOne : Number → Number
  | .nan => .finite 1
  | .infinity negative => if negative then .finite 1 else .infinity false
  | .finite n => .finite (max n 1)

/-- `parsePositivePage` (Pagination.ts :13) -/
def parsePositivePage (value : Option Str) : Number := value.elim (.finite 1) fun text => atLeastOne (parseInt text)

/-- `parsePageSize` (Pagination.ts :19) -/
def parsePageSize (value : Option Str) : PageSize :=
  (value.bind fun text => pageSizeOptions.attach.find? fun size => parseInt text == .finite size.1).getD defaultPageSize

/-- `lastPage` (Pagination.ts :27) -/
def lastPage (total : Nat) (pageSize : PageSize) : Nat := max ((total + pageSize.1 - 1) / pageSize.1) 1

/-- An integer that `String` writes in digits. -/
def Plain (x : Number) : Prop := ∃ n : Int, x = .finite n ∧ ofInt n = .finite n ∧ n.natAbs < 10 ^ 21

theorem plain_of_le {n : Nat} (h : n ≤ 2 ^ 53) : Plain (.finite n) :=
  ⟨n, rfl, ofInt_exact h, by
    rw [Int.natAbs_natCast]
    exact lt_of_le_of_lt h (by decide)⟩

theorem PageSize.plain (size : PageSize) : Plain (.finite size.1) := by
  refine plain_of_le ?_
  have hmax : ∀ n ∈ pageSizeOptions, n ≤ 100 := by decide
  have := hmax size.1 size.2
  omega

/-- `String(number)` and `parseInt` undo each other. -/
def Reads (text : Number → Str) : Prop := ∀ x, Plain x → parseInt (text x) = x

theorem parsePositivePage_text {text : Number → Str} (hread : Reads text) {n : Nat} (hpos : 1 ≤ n)
    (hplain : Plain (.finite n)) : parsePositivePage (some (text (.finite n))) = .finite n := by
  have hmax : max (n : Int) 1 = n := by omega
  rw [parsePositivePage, Option.elim_some, hread _ hplain, atLeastOne, hmax]

theorem parsePageSize_text {text : Number → Str} (hread : Reads text) (size : PageSize) :
    parsePageSize (some (text (.finite size.1))) = size := by
  have hfound : ∀ size : PageSize, (pageSizeOptions.attach.find? fun other =>
      Number.finite size.1 == .finite other.1) = some size := by
    rintro ⟨n, hn⟩
    fin_cases hn <;> rfl
  rw [parsePageSize, Option.bind_some, hread _ size.plain, hfound, Option.getD_some]

/-- `String(number)` of an integer that a double holds. -/
def integerText : Number → Str
  | .nan => "NaN"
  | .infinity negative => if negative then "-Infinity" else "Infinity"
  | .finite (.ofNat n) => Nat.toDigits 10 n
  | .finite (.negSucc n) => '-' :: Nat.toDigits 10 (n + 1)

theorem reads_integerText : Reads integerText := by
  rintro _ ⟨n, rfl, hexact, -⟩
  have hdigits : ∀ m : Nat, ∀ c ∈ Nat.toDigits 10 m, isDigit c = true := fun m c hc =>
    Nat.isDigit_of_mem_toDigits (by decide) (by decide) hc
  cases n with
  | ofNat n =>
    have hread := parseInt_digits Nat.toDigits_ne_nil (hdigits n)
    rw [show value (Nat.toDigits 10 n) = n from Nat.ofDigitChars_ten_toDigits] at hread
    exact hread.trans hexact
  | negSucc n =>
    have hread := leadingValue_digits Nat.toDigits_ne_nil (hdigits (n + 1))
    rw [show value (Nat.toDigits 10 (n + 1)) = n + 1 from Nat.ofDigitChars_ten_toDigits] at hread
    have hminus : parseInt ('-' :: Nat.toDigits 10 (n + 1)) =
        ((leadingValue (Nat.toDigits 10 (n + 1))).map fun n => ofInt (-n)).getD .nan := rfl
    rw [integerText, hminus, hread]
    exact hexact

/-- `text || undefined` -/
def nonEmpty (text : Str) : Option Str := if text = [] then none else some text

theorem nonEmpty_getD (text : Str) : (nonEmpty text).getD [] = text := by
  unfold nonEmpty
  split
  next h => exact h.symm
  next => rfl

/-- A value that is written unless it is the default. -/
def differing {α : Type} [DecidableEq α] (standard : α) (write : α → Str) (a : α) : Option Str :=
  if a ≠ standard then some (write a) else none

theorem read_differing {α : Type} [DecidableEq α] {standard a : α} {write : α → Str} {r : Option Str → α}
    (hnone : r none = standard) (hsome : r (some (write a)) = a) : r (differing standard write a) = a := by
  unfold differing
  split
  next => exact hsome
  next h => rw [hnone, not_not.1 h]

/-- The member of a list of names that a value spells. -/
def spelled {α : Type} (all : List α) (name : α → Str) (value : Option Str) : Option α :=
  value.bind fun text => all.find? fun a => name a == text

/-! ## The history page -/

inductive JobHistorySortCriterion
  | submit_time | id | user | state | priority | resources
deriving DecidableEq

namespace JobHistorySortCriterion

/-- `JobHistorySortCriteria` -/
def all : List JobHistorySortCriterion := [.submit_time, .id, .user, .state, .priority, .resources]

def name : JobHistorySortCriterion → Str
  | .submit_time => "submit_time"
  | .id => "id"
  | .user => "user"
  | .state => "state"
  | .priority => "priority"
  | .resources => "resources"

theorem spelled_name (criterion : JobHistorySortCriterion) :
    spelled all name (some criterion.name) = some criterion := by
  cases criterion <;> decide

end JobHistorySortCriterion

/-- `JobHistorySortOrders`, `JobSortOrders` -/
def sortOrders : List JobSortOrder := [.asc, .desc]

def orderName : JobSortOrder → Str
  | .asc => "asc"
  | .desc => "desc"

theorem spelled_orderName (order : JobSortOrder) :
    spelled sortOrders orderName (some (orderName order)) = some order := by
  cases order <;> decide

/-- The filters that are texts. -/
inductive TextKey
  | keyword | start | «end» | user | account | partition | qos | state
deriving DecidableEq

namespace TextKey

/-- `stringKeys` -/
def all : List TextKey := [.keyword, .start, .end, .user, .account, .partition, .qos, .state]

def name : TextKey → Str
  | .keyword => "keyword"
  | .start => "start"
  | .end => "end"
  | .user => "user"
  | .account => "account"
  | .partition => "partition"
  | .qos => "qos"
  | .state => "state"

theorem mem_all (key : TextKey) : key ∈ all := by cases key <;> decide

end TextKey

structure JobHistoryFilters where
  text : TextKey → Str
  job_id : Option Number

@[ext]
structure HistoryStore where
  sort : JobHistorySortCriterion
  order : JobSortOrder
  page : Number
  pageSize : PageSize
  filters : JobHistoryFilters

namespace HistoryStore

/-- `isValidSortCriterion(value) ? value : 'submit_time'` -/
def parseSort (value : Option Str) : JobHistorySortCriterion :=
  (spelled JobHistorySortCriterion.all JobHistorySortCriterion.name value).getD .submit_time

/-- `isValidSortOrder(value) ? value : 'desc'` -/
def parseOrder (value : Option Str) : JobSortOrder := (spelled sortOrders orderName value).getD .desc

/-- A job number that is none is no filter. -/
def parseJobId (value : Option Str) : Option Number :=
  (value.map parseInt).filter (· ≠ .nan)

/-- `hydrate` (jobsHistory.ts :84) -/
def hydrate (query : LocationQuery) : HistoryStore where
  sort := parseSort (string? query "sort".toList)
  order := parseOrder (string? query "order".toList)
  page := parsePositivePage (string? query "page".toList)
  pageSize := parsePageSize (string? query "page_size".toList)
  filters :=
    { text := fun key => (string? query key.name).getD [], job_id := parseJobId (string? query "job_id".toList) }

variable (text : Number → Str)

def fields (s : HistoryStore) : List (Str × Option Str) :=
  (TextKey.all.map fun key => (key.name, nonEmpty (s.filters.text key))) ++
    [("job_id".toList, s.filters.job_id.map text),
      ("page".toList, differing (.finite 1) text s.page),
      ("page_size".toList, differing defaultPageSize (fun size => text (.finite size.1)) s.pageSize),
      ("sort".toList, differing .submit_time JobHistorySortCriterion.name s.sort),
      ("order".toList, differing .desc orderName s.order)]

/-- `query` (:132) -/
def query (s : HistoryStore) : LocationQuery := present (s.fields text)

/-- A page number, and a job number, that the address can hold. -/
structure Plain (s : HistoryStore) : Prop where
  page : ∃ n : Nat, s.page = .finite n ∧ 1 ≤ n ∧ UrlState.Plain s.page
  job_id : ∀ id ∈ s.filters.job_id, UrlState.Plain id

theorem fields_nodup (s : HistoryStore) : ((s.fields text).map Prod.fst).Nodup := by
  have hkeys : (s.fields text).map Prod.fst = TextKey.all.map TextKey.name ++
      ["job_id".toList, "page".toList, "page_size".toList, "sort".toList, "order".toList] := rfl
  rw [hkeys]
  decide

variable {text}

theorem string_query {s : HistoryStore} {key : Str} {value : Option Str} (h : (key, value) ∈ s.fields text) :
    string? (s.query text) key = value :=
  string_present (s.fields_nodup text) h

theorem parseJobId_text (hread : Reads text) {id : Option Number} (h : ∀ n ∈ id, UrlState.Plain n) :
    parseJobId (id.map text) = id := by
  cases id with
  | none => rfl
  | some n =>
    have hne : n ≠ .nan := by
      obtain ⟨k, rfl, -⟩ := h n rfl
      exact Number.noConfusion
    rw [parseJobId, Option.map_some, Option.map_some, hread n (h n rfl)]
    exact Option.filter_some_pos (by simpa using hne)

theorem text_query (s : HistoryStore) (key : TextKey) :
    string? (s.query text) key.name = nonEmpty (s.filters.text key) :=
  string_query (List.mem_append_left _ (List.mem_map.2 ⟨key, key.mem_all, rfl⟩))

theorem hydrate_sort (s : HistoryStore) : (hydrate (s.query text)).sort = s.sort := by
  have hwritten : string? (s.query text) "sort".toList = differing .submit_time JobHistorySortCriterion.name s.sort :=
    string_query (List.mem_append_right _ (.tail _ (.tail _ (.tail _ (.head _)))))
  refine (congrArg parseSort hwritten).trans (read_differing rfl ?_)
  rw [parseSort, s.sort.spelled_name, Option.getD_some]

theorem hydrate_order (s : HistoryStore) : (hydrate (s.query text)).order = s.order := by
  have hwritten : string? (s.query text) "order".toList = differing .desc orderName s.order :=
    string_query (List.mem_append_right _ (.tail _ (.tail _ (.tail _ (.tail _ (.head _))))))
  refine (congrArg parseOrder hwritten).trans (read_differing rfl ?_)
  rw [parseOrder, spelled_orderName, Option.getD_some]

theorem hydrate_page (hread : Reads text) {s : HistoryStore} (h : s.Plain) :
    (hydrate (s.query text)).page = s.page := by
  obtain ⟨n, hn, hpos, hplain⟩ := h.page
  have hwritten : string? (s.query text) "page".toList = differing (.finite 1) text s.page :=
    string_query (List.mem_append_right _ (.tail _ (.head _)))
  refine (congrArg parsePositivePage hwritten).trans (read_differing rfl ?_)
  rw [hn] at hplain ⊢
  exact parsePositivePage_text hread hpos hplain

theorem hydrate_pageSize (hread : Reads text) (s : HistoryStore) : (hydrate (s.query text)).pageSize = s.pageSize := by
  have hwritten : string? (s.query text) "page_size".toList =
      differing defaultPageSize (fun size => text (.finite size.1)) s.pageSize :=
    string_query (List.mem_append_right _ (.tail _ (.tail _ (.head _))))
  exact (congrArg parsePageSize hwritten).trans (read_differing rfl (parsePageSize_text hread _))

theorem hydrate_filters (hread : Reads text) {s : HistoryStore} (h : s.Plain) :
    (hydrate (s.query text)).filters = s.filters := by
  have hwritten : string? (s.query text) "job_id".toList = s.filters.job_id.map text :=
    string_query (List.mem_append_right _ (.head _))
  have hid : parseJobId (string? (s.query text) "job_id".toList) = s.filters.job_id :=
    (congrArg parseJobId hwritten).trans (parseJobId_text hread h.job_id)
  have htexts : (fun key : TextKey => (string? (s.query text) key.name).getD []) = s.filters.text := by
    funext key
    rw [text_query, nonEmpty_getD]
  exact congrArg₂ JobHistoryFilters.mk htexts hid

/-- The address holds the store. -/
theorem hydrate_query (hread : Reads text) {s : HistoryStore} (h : s.Plain) : hydrate (s.query text) = s :=
  HistoryStore.ext s.hydrate_sort s.hydrate_order (hydrate_page hread h) (hydrate_pageSize hread s)
    (hydrate_filters hread h)

end HistoryStore

/-! ### The view -/

/-- The page: the store, the address it is at, the one that `router.push` is on its way to, the number of jobs of the
last answer, and whether a filter was changed since the last search. -/
structure HistoryView where
  store : HistoryStore
  url : LocationQuery
  pending : Option LocationQuery
  total : Nat
  edited : Bool

/-- `page > lastPage` -/
def exceeds : Number → Nat → Bool
  | .nan, _ => false
  | .infinity negative, _ => !negative
  | .finite n, last => last < n

namespace HistoryView

variable (text : Number → Str)

/-- The address that the page is at, or will be. -/
def target (v : HistoryView) : LocationQuery := v.pending.getD v.url

/-- `updateQueryParameters` (JobsHistoryView.vue :92) -/
def updateQueryParameters (v : HistoryView) : HistoryView :=
  { v with pending := if v.store.query text = v.url then none else some (v.store.query text), edited := false }

/-- `route.query` has changed (:129). -/
def arrive (v : HistoryView) (query : LocationQuery) : HistoryView :=
  { v with store := .hydrate query, url := query, pending := none, edited := false }

/-- `totalPages` (:56) -/
def totalPages (v : HistoryView) : Nat := lastPage v.total v.store.pageSize

def updateFilters (v : HistoryView) (filters : JobHistoryFilters) : HistoryView :=
  { v with store.filters := filters, edited := true }

/-- `applyFilters` (:83) -/
def applyFilters (v : HistoryView) : HistoryView := updateQueryParameters text { v with store.page := .finite 1 }

/-- `sortHistory` (:100) -/
def sortHistory (v : HistoryView) (newSort : Option JobHistorySortCriterion)
    (newOrder : Option JobSortOrder) : HistoryView :=
  updateQueryParameters text { v with
    store.sort := newSort.getD v.store.sort, store.order := newOrder.getD v.store.order, store.page := .finite 1 }

/-- `updatePage` (:118), as `changePage` of PaginationControls.vue calls it. -/
def changePage (v : HistoryView) (newPage : Nat) : HistoryView :=
  if newPage < 1 ∨ v.totalPages < newPage ∨ v.store.page = .finite newPage then v
  else updateQueryParameters text { v with store.page := .finite newPage }

/-- `updatePageSize` (:123) -/
def updatePageSize (v : HistoryView) (newPageSize : PageSize) : HistoryView :=
  updateQueryParameters text { v with store.pageSize := newPageSize, store.page := .finite 1 }

/-- The page ends before the one shown (:149). -/
def watchTotalPages (v : HistoryView) : HistoryView :=
  if exceeds v.store.page v.totalPages then updateQueryParameters text
    { v with store.page := .finite v.totalPages } else v

/-- One event of the page. An address is opened while it is another than the one shown. -/
inductive Step : HistoryView → HistoryView → Prop
  | edit {v} (filters) (h : ∀ id ∈ filters.job_id, Plain id) : Step v (v.updateFilters filters)
  | search {v} : Step v (v.applyFilters text)
  | sort {v} (newSort newOrder) : Step v (v.sortHistory text newSort newOrder)
  | page {v} (newPage) : Step v (v.changePage text newPage)
  | resize {v} (newPageSize) : Step v (v.updatePageSize text newPageSize)
  | arrive {v query} (h : v.pending = some query) : Step v (v.arrive query)
  | visit {v query} (h : query ≠ v.url) (hplain : (HistoryStore.hydrate query).Plain) : Step v (v.arrive query)
  | answer {v} (total : Nat) (h : total ≤ 2 ^ 53) : Step v { v with total := total }
  | watch {v} : Step v (v.watchTotalPages text)

/-- The page was opened at an address. -/
inductive Reached : HistoryView → Prop
  | mounted {query} (hplain : (HistoryStore.hydrate query).Plain) : Reached ⟨.hydrate query, query, none, 0, false⟩
  | step {v v'} (h : Reached v) (hstep : Step text v v') : Reached v'

/-- The address has the order and the page, and the filters unless some were changed since the last search. -/
structure Agrees (v : HistoryView) : Prop where
  order : { v.store with filters := (HistoryStore.hydrate v.target).filters } = HistoryStore.hydrate v.target
  filters : v.edited = false → v.store = HistoryStore.hydrate v.target

structure Inv (v : HistoryView) : Prop where
  agrees : v.Agrees
  plain : v.store.Plain
  total : v.total ≤ 2 ^ 53
  pending : ∀ query ∈ v.pending, (HistoryStore.hydrate query).Plain

variable {text}

theorem Inv.of_hydrate {v : HistoryView} (hstore : v.store = .hydrate v.target) (hplain : v.store.Plain)
    (htotal : v.total ≤ 2 ^ 53) (hpending : ∀ query ∈ v.pending, (HistoryStore.hydrate query).Plain) : v.Inv where
  agrees := ⟨by rw [← hstore], fun _ => hstore⟩
  plain := hplain
  total := htotal
  pending := hpending

/-- Whatever the page showed, its address follows. -/
theorem inv_updateQueryParameters (hread : Reads text) {v : HistoryView} (hplain : v.store.Plain)
    (htotal : v.total ≤ 2 ^ 53) : (v.updateQueryParameters text).Inv := by
  have hback := HistoryStore.hydrate_query hread hplain
  by_cases hsame : v.store.query text = v.url
  · have hpending : (v.updateQueryParameters text).pending = none := if_pos hsame
    refine Inv.of_hydrate ?_ hplain htotal fun query hq => ?_
    · rw [target, hpending]
      exact hback.symm.trans (congrArg _ hsame)
    · rw [hpending] at hq
      cases hq
  · have hpending : (v.updateQueryParameters text).pending = some (v.store.query text) := if_neg hsame
    refine Inv.of_hydrate ?_ hplain htotal fun query hq => ?_
    · rw [target, hpending]
      exact hback.symm
    · rw [hpending] at hq
      obtain rfl := Option.some.inj hq
      rw [hback]
      exact hplain

theorem inv_arrive {v : HistoryView} {query : LocationQuery} (hplain : (HistoryStore.hydrate query).Plain)
    (htotal : v.total ≤ 2 ^ 53) : (v.arrive query).Inv :=
  Inv.of_hydrate rfl hplain htotal fun _ h => by cases h

theorem plain_first {s : HistoryStore} (h : s.Plain) (sort : JobHistorySortCriterion) (order : JobSortOrder)
    (pageSize : PageSize) :
    HistoryStore.Plain { s with sort := sort, order := order, pageSize := pageSize, page := .finite 1 } :=
  ⟨⟨1, rfl, le_refl 1, plain_of_le (n := 1) (by decide)⟩, h.job_id⟩

theorem plain_page {s : HistoryStore} (h : s.Plain) {n : Nat} (hpos : 1 ≤ n) (hle : n ≤ 2 ^ 53) :
    HistoryStore.Plain { s with page := .finite n } :=
  ⟨⟨n, rfl, hpos, plain_of_le hle⟩, h.job_id⟩

theorem lastPage_le {total : Nat} (h : total ≤ 2 ^ 53) (pageSize : PageSize) : lastPage total pageSize ≤ 2 ^ 53 := by
  have hpos : 0 < pageSize.1 := by
    have hall : ∀ n ∈ pageSizeOptions, 0 < n := by decide
    exact hall _ pageSize.2
  have hpages : (total + pageSize.1 - 1) / pageSize.1 < total + 1 := by
    rw [Nat.div_lt_iff_lt_mul hpos, Nat.add_mul, Nat.one_mul]
    have := Nat.le_mul_of_pos_right total hpos
    omega
  exact max_le ((Nat.le_of_lt_succ hpages).trans h) (by decide)

theorem one_le_lastPage (total : Nat) (pageSize : PageSize) : 1 ≤ lastPage total pageSize := le_max_right _ _

theorem inv_step (hread : Reads text) {v v' : HistoryView} (h : v.Inv) (hstep : Step text v v') : v'.Inv := by
  cases hstep with
  | edit filters hid =>
    refine ⟨⟨?_, fun hedited => by cases hedited⟩, ⟨h.plain.page, hid⟩, h.total, h.pending⟩
    exact h.agrees.order
  | search =>
    exact inv_updateQueryParameters hread (plain_first h.plain v.store.sort v.store.order v.store.pageSize) h.total
  | sort newSort newOrder => exact inv_updateQueryParameters hread (plain_first h.plain _ _ v.store.pageSize) h.total
  | page newPage =>
    rw [changePage]
    split
    next => exact h
    next hpage =>
      rw [not_or, not_or, Nat.not_lt, Nat.not_lt] at hpage
      exact inv_updateQueryParameters hread
        (plain_page h.plain hpage.1 (hpage.2.1.trans (lastPage_le h.total _))) h.total
  | resize newPageSize =>
    exact inv_updateQueryParameters hread (plain_first h.plain v.store.sort v.store.order _) h.total
  | arrive hpending => exact inv_arrive (h.pending _ hpending) h.total
  | visit hother hplain => exact inv_arrive hplain h.total
  | answer total htotal => exact ⟨⟨h.agrees.order, h.agrees.filters⟩, h.plain, htotal, h.pending⟩
  | watch =>
    rw [watchTotalPages]
    split
    next =>
      exact inv_updateQueryParameters hread (plain_page h.plain (one_le_lastPage _ _) (lastPage_le h.total _)) h.total
    next => exact h

theorem inv_reached (hread : Reads text) {v : HistoryView} (h : Reached text v) : v.Inv := by
  induction h with
  | mounted hplain => exact .of_hydrate rfl hplain (Nat.zero_le _) fun _ h => by cases h
  | step _ hstep ih => exact inv_step hread ih hstep

/-- **Store and address agree** in every run of the page. -/
theorem history_agrees (hread : Reads text) {v : HistoryView} (h : Reached text v) : v.Agrees :=
  (inv_reached hread h).agrees

/-- The address of the third page, of fifty jobs each. -/
def thirdPage : LocationQuery := [("page".toList, .text "3"), ("page_size".toList, .text "50")]

theorem plain_thirdPage : (HistoryStore.hydrate thirdPage).Plain where
  page := by
    have hpage : (HistoryStore.hydrate thirdPage).page = .finite (3 : Nat) := by decide
    exact ⟨3, hpage, by decide, hpage ▸ plain_of_le (by decide)⟩
  job_id id h := by cases h

theorem history_agrees_thirdPage : (HistoryView.applyFilters integerText ⟨.hydrate thirdPage, thirdPage,
    none, 0, false⟩).Agrees :=
  history_agrees reads_integerText (.step (.mounted plain_thirdPage) .search)

end HistoryView

/-! ## The jobs page -/

/-- `JobSortCriteria` -/
def jobSortCriteria : List JobSortCriterion := [.id, .user, .state, .priority, .resources]

def criterionName : JobSortCriterion → Str
  | .id => "id"
  | .user => "user"
  | .state => "state"
  | .priority => "priority"
  | .resources => "resources"

theorem spelled_criterionName (criterion : JobSortCriterion) :
    spelled jobSortCriteria criterionName (some (criterionName criterion)) = some criterion := by
  cases criterion <;> decide

@[ext]
structure JobsStore where
  sort : JobSortCriterion
  order : JobSortOrder
  page : Number
  pageSize : PageSize
  filters : JobsViewFilters

/-- `if (query[key])` -/
def given (query : LocationQuery) (key : Str) : Option QueryValue :=
  (Dict.lookup query key).filter fun value => value ≠ .null ∧ value ≠ .text []

def QueryValue.string? : QueryValue → Option Str
  | .text value => some value
  | _ => none

namespace JobsStore

/-- The store of a page that was never opened. -/
def initial : JobsStore := ⟨.id, .asc, .finite 1, defaultPageSize, ⟨[], [], [], [], []⟩⟩

/-- `values.join()`, for a list that is not empty. -/
def joinValues (values : List Str) : Option Str := if values.length > 0 then some ([','].intercalate values) else none

variable (text : Number → Str)

def fields (s : JobsStore) : List (Str × Option Str) :=
  [("page".toList, differing (.finite 1) text s.page),
    ("page_size".toList, differing defaultPageSize (fun size => text (.finite size.1)) s.pageSize),
    ("sort".toList, differing .id criterionName s.sort),
    ("order".toList, differing .asc orderName s.order)] ++
    ([.states, .users, .accounts, .qos, .partitions] : List Filter).map fun filter =>
      (filter.key, joinValues (s.filters.values filter))

/-- `query` (jobs.ts :154) -/
def query (s : JobsStore) : LocationQuery := present (s.fields text)

/-- The parameters that make the page read its address: `order` is not among them. -/
def readKeys : List Str := ["sort", "states", "users", "accounts", "page", "page_size", "qos",
  "partitions"].map String.toList

/-- `onMounted` (JobsView.vue :318): `split` is no function of a list, and a page that reads nothing keeps its store. -/
def mounted (s : JobsStore) (query : LocationQuery) : Option JobsStore :=
  if readKeys.any fun key => (Dict.lookup query key).isSome then
    if Filter.all.any fun filter => (given query filter.key).any fun value => value.string? = none then none
    else some
      { sort := (spelled jobSortCriteria criterionName (string? query "sort".toList)).getD s.sort
        order := (spelled sortOrders orderName (string? query "order".toList)).getD s.order
        page := (given query "page".toList).elim s.page fun value => parsePositivePage value.string?
        pageSize := (given query "page_size".toList).elim s.pageSize fun value => parsePageSize value.string?
        filters := fromURL fun filter => string? query filter.key }
  else some s

/-- The order, the page and the filters that make the page read its address. -/
def Marked (s : JobsStore) : Prop :=
  s.sort ≠ .id ∨ s.page ≠ .finite 1 ∨ s.pageSize ≠ defaultPageSize ∨ ∃ filter, s.filters.values filter ≠ []

/-- A list that its text gives back. -/
def Splits (values : List Str) : Prop := values = [] ∨ values ≠ [[]] ∧ ∀ value ∈ values, ',' ∉ value

theorem filterValues_joinValues (values : List Str) : filterValues (joinValues values) = values ↔ Splits values := by
  by_cases hnil : values = []
  · rw [hnil]
    exact iff_of_true rfl (.inl rfl)
  · have hjoin : joinValues values = some ([','].intercalate values) := if_pos (List.length_pos_iff.2 hnil)
    rw [hjoin, filterValues, Splits]
    by_cases hempty : [','].intercalate values = []
    · have hone : values = [[]] := by
        obtain ⟨value, rest, rfl⟩ := List.exists_cons_of_ne_nil hnil
        cases rest with
        | nil =>
          rw [List.intercalate_singleton] at hempty
          rw [hempty]
        | cons other rest => simp [List.intercalate_cons_cons] at hempty
      rw [if_pos hempty, hone]
      simp
    · have hone : values ≠ [[]] := by
        rintro rfl
        exact hempty rfl
      rw [if_neg hempty]
      constructor
      · intro h
        refine .inr ⟨hone, fun value hvalue => ?_⟩
        rw [← h] at hvalue
        exact not_mem_of_mem_splitOn hvalue
      · rintro (h | ⟨-, h⟩)
        · exact absurd h hnil
        · exact List.splitOn_intercalate ',' h hnil

variable {text}

theorem fields_nodup (s : JobsStore) : ((s.fields text).map Prod.fst).Nodup := by
  have hkeys : (s.fields text).map Prod.fst =
      ["page", "page_size", "sort", "order", "states", "users", "accounts", "qos", "partitions"].map String.toList :=
        rfl
  rw [hkeys]
  decide

theorem lookup_query {s : JobsStore} {key : Str} {value : Option Str} (h : (key, value) ∈ s.fields text) :
    Dict.lookup (s.query text) key = value.map .text :=
  lookup_present (s.fields_nodup) h

theorem string_query {s : JobsStore} {key : Str} {value : Option Str} (h : (key, value) ∈ s.fields text) :
    string? (s.query text) key = value :=
  string_present (s.fields_nodup) h

section Members

variable (s : JobsStore)

theorem page_mem : ("page".toList, differing (.finite 1) text s.page) ∈ s.fields text := .head _

theorem page_size_mem : ("page_size".toList, differing defaultPageSize (fun size => text (.finite size.1))
    s.pageSize) ∈ s.fields text :=
  .tail _ (.head _)

theorem sort_mem : ("sort".toList, differing .id criterionName s.sort) ∈ s.fields text := .tail _ (.tail _ (.head _))

theorem order_mem : ("order".toList, differing .asc orderName s.order) ∈ s.fields text :=
  .tail _ (.tail _ (.tail _ (.head _)))

theorem filter_mem (filter : Filter) : (filter.key, joinValues (s.filters.values filter)) ∈ s.fields text := by
  refine List.mem_append_right _ (List.mem_map.2 ⟨filter, ?_, rfl⟩)
  cases filter <;> decide

end Members

theorem differing_isSome {α : Type} [DecidableEq α] {standard a : α} {write : α → Str} :
    (differing standard write a).isSome = true ↔ a ≠ standard := by
  unfold differing
  split
  next h => exact iff_of_true rfl h
  next h => exact iff_of_false Bool.false_ne_true h

theorem joinValues_isSome {values : List Str} : (joinValues values).isSome = true ↔ values ≠ [] := by
  cases values with
  | nil => exact iff_of_false Bool.false_ne_true fun h => h rfl
  | cons value values => exact iff_of_true rfl (List.cons_ne_nil _ _)

/-- The page reads its address as soon as the address has one of these. -/
theorem reads_iff (s : JobsStore) :
    (readKeys.any fun key => (Dict.lookup (s.query text) key).isSome) = true ↔ s.Marked := by
  have hkey : ∀ {key : Str} {value : Option Str}, (key, value) ∈ s.fields text →
      ((Dict.lookup (s.query text) key).isSome = true ↔ value.isSome = true) := by
    intro key value h
    rw [lookup_query h, Option.isSome_map]
  have hall : readKeys = ["sort".toList, Filter.states.key, Filter.users.key, Filter.accounts.key,
      "page".toList, "page_size".toList, Filter.qos.key, Filter.partitions.key] := rfl
  simp only [hall, List.any_cons, List.any_nil, Bool.or_eq_true, Bool.or_false, hkey s.sort_mem, hkey s.page_mem,
    hkey s.page_size_mem, hkey (s.filter_mem _), differing_isSome, joinValues_isSome, Marked]
  constructor
  · rintro (h | h | h | h | h | h | h | h)
    · exact .inl h
    · exact .inr (.inr (.inr ⟨_, h⟩))
    · exact .inr (.inr (.inr ⟨_, h⟩))
    · exact .inr (.inr (.inr ⟨_, h⟩))
    · exact .inr (.inl h)
    · exact .inr (.inr (.inl h))
    · exact .inr (.inr (.inr ⟨_, h⟩))
    · exact .inr (.inr (.inr ⟨_, h⟩))
  · rintro (h | h | h | ⟨filter, h⟩)
    · exact .inl h
    · exact .inr (.inr (.inr (.inr (.inl h))))
    · exact .inr (.inr (.inr (.inr (.inr (.inl h)))))
    · cases filter <;> simp [h]

theorem given_elim {α : Type} {query : LocationQuery} {key : Str} {value : Option Str}
    {standard : α} {r : Option Str → α}
    (h : Dict.lookup query key = value.map .text) (hnone : r none = standard) (hempty : r (some []) = standard) :
    (given query key).elim standard (fun v => r v.string?) = r value := by
  unfold given
  rw [h]
  match value with
  | none => exact hnone.symm
  | some [] => exact hempty.symm
  | some (c :: cs) => rfl

theorem given_text {query : LocationQuery} {key : Str} {value : Option Str}
    (h : Dict.lookup query key = value.map .text) :
    ((given query key).any fun v => v.string? = none) = false := by
  unfold given
  rw [h]
  match value with
  | none => rfl
  | some [] => rfl
  | some (c :: cs) => rfl

/-- A page number that the address can hold. -/
def PlainPage (s : JobsStore) : Prop := ∃ n : Nat, s.page = .finite n ∧ 1 ≤ n ∧ Plain s.page

/-- The page that the address opens: its filters are cut at the commas again. -/
theorem mounted_marked (hread : Reads text) {s : JobsStore} (hplain : s.PlainPage) (hmarked : s.Marked) :
    initial.mounted (s.query text) =
      some { s with filters := fromURL fun filter => joinValues (s.filters.values filter) } := by
  have hlists : (Filter.all.any fun filter => (given (s.query text) filter.key).any fun value =>
      value.string? = none) = false :=
    List.any_eq_false.2 fun filter _ => by
      rw [given_text (lookup_query (s.filter_mem filter))]; exact Bool.false_ne_true
  rw [mounted, if_pos (s.reads_iff.2 hmarked), if_neg (by rw [hlists]; exact Bool.false_ne_true)]
  refine congrArg some (JobsStore.ext ?_ ?_ ?_ ?_ ?_)
  · refine (congrArg (fun v => (spelled jobSortCriteria criterionName v).getD .id) (string_query s.sort_mem)).trans ?_
    refine read_differing (r := fun v => (spelled jobSortCriteria criterionName v).getD .id) rfl ?_
    rw [spelled_criterionName, Option.getD_some]
  · refine (congrArg (fun v => (spelled sortOrders orderName v).getD .asc) (string_query s.order_mem)).trans ?_
    refine read_differing (r := fun v => (spelled sortOrders orderName v).getD .asc) rfl ?_
    rw [spelled_orderName, Option.getD_some]
  · obtain ⟨n, hn, hpos, hpage⟩ := hplain
    refine (given_elim (r := parsePositivePage) (lookup_query s.page_mem) rfl (by decide)).trans (read_differing rfl ?_)
    rw [hn] at hpage ⊢
    exact parsePositivePage_text hread hpos hpage
  · exact (given_elim (r := parsePageSize) (lookup_query s.page_size_mem) rfl (by decide)).trans
      (read_differing rfl (parsePageSize_text hread _))
  · exact congrArg fromURL (funext fun filter => string_query (s.filter_mem filter))

theorem fromURL_joinValues (filters : JobsViewFilters) :
    (fromURL fun filter => joinValues (filters.values filter)) = filters ↔
      ∀ filter, Splits (filters.values filter) := by
  simp only [← filterValues_joinValues]
  constructor
  · intro h filter
    have hvalues := congrArg (fun f : JobsViewFilters => f.values filter) h
    cases filter <;> exact hvalues
  · intro h
    obtain ⟨states, users, accounts, qos, partitions⟩ := filters
    rw [fromURL, JobsViewFilters.mk.injEq]
    exact ⟨h .states, h .users, h .accounts, h .qos, h .partitions⟩

theorem eq_initial_of_unmarked {s : JobsStore} (hmarked : ¬s.Marked) (horder : s.order = .asc) : s = initial := by
  simp only [Marked, not_or, not_exists, ne_eq, not_not] at hmarked
  obtain ⟨hsort, hpage, hsize, hfilters⟩ := hmarked
  obtain ⟨sort, order, page, pageSize, states, users, accounts, qos, partitions⟩ := s
  have hstates : states = [] := hfilters .states
  have husers : users = [] := hfilters .users
  have haccounts : accounts = [] := hfilters .accounts
  have hqos : qos = [] := hfilters .qos
  have hpartitions : partitions = [] := hfilters .partitions
  subst hsort hpage hsize horder hstates husers haccounts hqos hpartitions
  rfl

/-- **A page is restored from the address it wrote** exactly when its order is the default one or marked, and
no filter has a value that a comma tears apart. -/
theorem jobs_restored_iff (hread : Reads text) {s : JobsStore} (hplain : s.PlainPage) :
    initial.mounted (s.query text) = some s ↔
      (s.order = .asc ∨ s.Marked) ∧ ∀ filter, Splits (s.filters.values filter) := by
  by_cases hmarked : s.Marked
  · rw [mounted_marked hread hplain hmarked, ← fromURL_joinValues]
    constructor
    · intro h
      exact ⟨.inr hmarked, congrArg JobsStore.filters (Option.some.inj h)⟩
    · rintro ⟨-, h⟩
      rw [h]
  · have hunread : initial.mounted (s.query text) = some initial := if_neg (mt s.reads_iff.1 hmarked)
    rw [hunread]
    constructor
    · intro h
      obtain rfl := Option.some.inj h
      exact ⟨.inl rfl, fun filter => .inl (by cases filter <;> rfl)⟩
    · rintro ⟨horder | h, -⟩
      · rw [eq_initial_of_unmarked hmarked horder]
      · exact absurd h hmarked

/-- Two users in descending order, the second page. -/
def bothUsers : JobsStore := ⟨.id, .desc, .finite 2, defaultPageSize, ⟨[], ["alice", "bob"], [], [], []⟩⟩

theorem jobs_restored_bothUsers : initial.mounted (bothUsers.query integerText) = some bothUsers := by
  refine (jobs_restored_iff reads_integerText ⟨2, rfl, by decide, plain_of_le (n := 2) (by decide)⟩).2
    ⟨.inr (.inr (.inl (by decide))), fun filter => ?_⟩
  cases filter with
  | users => exact .inr (by decide)
  | _ => exact .inl rfl

end JobsStore

end SlurmWeb.UrlState
