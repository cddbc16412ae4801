import SlurmWeb.Lib.Lists

/-!
# Reading an ordered answer in pages

A query with an ORDER BY may answer with its rows in any order the clause allows, another one each
time. Pages are slices of such answers.

* `RowOrder.andThen` — the order of two sort columns.
* `pagesExact_of_strict` — where the clause leaves no two rows tied, reading page after page yields every
  row once, whatever the answers.
* `pagesExact_one_iff` — and only there, for pages of one row.
-/

namespace Paging

variable {α β : Type}

/-- The order of a sort column: rows may be tied. -/
structure RowOrder (α : Type) where
  le : α → α → Prop
  total : ∀ a b, le a b ∨ le b a
  trans : ∀ a b c, le a b → le b c → le a c

namespace RowOrder

variable (o : RowOrder α)

theorem refl (a : α) : o.le a a := (o.total a a).elim id id

def Tied (a b : α) : Prop := o.le a b ∧ o.le b a

/-- No two of the rows are tied. -/
def Strict (rows : List α) : Prop := ∀ a ∈ rows, ∀ b ∈ rows, o.Tied a b → a = b

/-- The order of a row's column. -/
def on (o : RowOrder β) (f : α → β) : RowOrder α where
  le a b := o.le (f a) (f b)
  total a b := o.total (f a) (f b)
  trans a b c := o.trans (f a) (f b) (f c)

/-- Everything tied. -/
def trivial : RowOrder α := ⟨fun _ _ => True, fun _ _ => .inl True.intro, fun _ _ _ _ _ => True.intro⟩

/-- Rows tied in the first order are in the second's. -/
def andThen (o p : RowOrder α) : RowOrder α where
  le a b := o.le a b ∧ (o.le b a → p.le a b)
  total a b := by
    by_cases hab : o.le a b
    · by_cases hba : o.le b a
      · rcases p.total a b with h | h
        · exact .inl ⟨hab, fun _ => h⟩
        · exact .inr ⟨hba, fun _ => h⟩
      · exact .inl ⟨hab, fun h => absurd h hba⟩
    · have hba : o.le b a := (o.total a b).resolve_left hab
      exact .inr ⟨hba, fun h => absurd h hab⟩
  trans a b c hab hbc := by
    refine ⟨o.trans a b c hab.1 hbc.1, fun hca => ?_⟩
    have hba : o.le b a := o.trans b c a hbc.1 hca
    have hcb : o.le c b := o.trans c a b hca hab.1
    exact p.trans a b c (hab.2 hba) (hbc.2 hcb)

theorem tied_andThen {o p : RowOrder α} {a b : α} : (o.andThen p).Tied a b ↔ o.Tied a b ∧ p.Tied a b := by
  constructor
  · rintro ⟨hab, hba⟩
    exact ⟨⟨hab.1, hba.1⟩, hab.2 hba.1, hba.2 hab.1⟩
  · rintro ⟨⟨hab, hba⟩, hpab, hpba⟩
    exact ⟨⟨hab, fun _ => hpab⟩, hba, fun _ => hpba⟩

/-- The clause with these columns. -/
def clause (columns : List (RowOrder α)) : RowOrder α := columns.foldr andThen trivial

theorem tied_clause {columns : List (RowOrder α)} {a b : α} : (clause columns).Tied a b ↔
    ∀ c ∈ columns, c.Tied a b := by
  induction columns with
  | nil => simp [clause, trivial, Tied]
  | cons c columns ih => rw [clause, List.foldr_cons, tied_andThen, List.forall_mem_cons, ← ih, clause]

end RowOrder

/-! ## Answers -/

/-- The rows in an order the clause allows. -/
structure Answer (o : RowOrder α) (rows answer : List α) : Prop where
  perm : answer.Perm rows
  ordered : answer.Pairwise o.le

/-- Page `n` of an answer, counted from zero. -/
def page (answer : List α) (size n : Nat) : List α := (answer.drop (size * n)).take size

/-- What `count` pages yield, each of an answer of its own. -/
def read (answers : Nat → List α) (size count : Nat) : List α := (List.range count).flatMap fun n =>
  page (answers n) size n

/-- Enough pages yield every row once, whatever the answers. -/
def PagesExact (o : RowOrder α) (rows : List α) (size : Nat) : Prop :=
  ∀ answers : Nat → List α, (∀ n, Answer o rows (answers n)) → ∀ count, rows.length ≤ size * count →
    (read answers size count).Perm rows

theorem answer_unique {o : RowOrder α} {rows a b : List α} (h : o.Strict rows)
    (ha : Answer o rows a) (hb : Answer o rows b) : a = b := by
  have hperm : a.Perm b := ha.perm.trans hb.perm.symm
  exact hperm.eq_of_pairwise (fun x y hx hy hxy hyx => h x (ha.perm.subset hx) y (hb.perm.subset hy) ⟨hxy, hyx⟩)
    ha.ordered hb.ordered

theorem pagesExact_of_strict {o : RowOrder α} {rows : List α} (h : o.Strict rows) (size : Nat) :
    PagesExact o rows size := by
  intro answers hanswers count hcount
  have hsame : ∀ n, answers n = answers 0 := fun n => answer_unique h (hanswers n) (hanswers 0)
  have hread : read answers size count = answers 0 := by
    simp only [read, page, hsame, List.flatMap_def]
    rw [List.flatten_slices, List.take_of_length_le]
    rw [(hanswers 0).perm.length_eq]
    exact hcount
  rw [hread]
  exact (hanswers 0).perm

section Swap

open Classical

/-- Two tied rows may change places in an answer. -/
theorem Answer.swap {o : RowOrder α} {rows answer : List α} (h : Answer o rows answer) (hnodup : rows.Nodup) {a b : α}
    (ha : a ∈ rows) (hb : b ∈ rows) (htied : o.Tied a b) : Answer o rows (answer.map (Equiv.swap a b)) := by
  have hstays : ∀ x, o.Tied x (Equiv.swap a b x) := by
    intro x
    rw [Equiv.swap_apply_def]
    split
    next hx => exact hx ▸ htied
    next =>
      split
      next hx => exact hx ▸ htied.symm
      next => exact ⟨o.refl x, o.refl x⟩
  have hrows : ∀ x, Equiv.swap a b x ∈ rows ↔ x ∈ rows := by
    intro x
    rw [Equiv.swap_apply_def]
    split
    next hx => simp [hx, ha, hb]
    next =>
      split
      next hx => simp [hx, ha, hb]
      next => rfl
  constructor
  · have hanswer : answer.Nodup := h.perm.nodup_iff.2 hnodup
    rw [List.perm_ext_iff_of_nodup (hanswer.map (Equiv.swap a b).injective) hnodup]
    intro x
    rw [List.mem_map]
    constructor
    · rintro ⟨y, hy, rfl⟩
      exact (hrows y).2 (h.perm.subset hy)
    · intro hx
      refine ⟨(Equiv.swap a b).symm x, h.perm.symm.subset ?_, (Equiv.swap a b).apply_symm_apply x⟩
      rw [Equiv.symm_swap]
      exact (hrows x).2 hx
  · rw [List.pairwise_map]
    refine h.ordered.imp fun {x y} hxy => ?_
    exact o.trans _ _ _ (hstays x).2 (o.trans _ _ _ hxy (hstays y).1)

/-- An answer there is. -/
theorem exists_answer (o : RowOrder α) (rows : List α) : ∃ answer, Answer o rows answer := by
  have : Std.Total o.le := ⟨o.total⟩
  have : IsTrans α o.le := ⟨o.trans⟩
  exact ⟨rows.insertionSort o.le, List.perm_insertionSort _ _, List.pairwise_insertionSort _ _⟩

/-- Tied rows can be kept off every page. -/
theorem not_pagesExact_of_tied {o : RowOrder α} {rows : List α} (hnodup : rows.Nodup) {a b : α}
    (ha : a ∈ rows) (hb : b ∈ rows) (hne : a ≠ b) (htied : o.Tied a b) : ¬ PagesExact o rows 1 := by
  obtain ⟨answer, hanswer⟩ := exists_answer o rows
  have hanswerNodup : answer.Nodup := hanswer.perm.nodup_iff.2 hnodup
  obtain ⟨j, hj, hjb⟩ := List.getElem_of_mem (hanswer.perm.symm.subset hb)
  -- the page of `b` comes from the answer in which `a` has its place
  let answers : Nat → List α := fun n => if n = j then answer.map (Equiv.swap a b) else answer
  have hanswers : ∀ n, Answer o rows (answers n) := by
    intro n
    dsimp only [answers]
    split
    · exact hanswer.swap hnodup ha hb htied
    · exact hanswer
  intro hexact
  have hperm := hexact answers hanswers rows.length (by omega)
  obtain ⟨n, -, hn⟩ := List.mem_flatMap.1 (hperm.symm.subset hb)
  have hpage : ∀ l : List α, b ∈ page l 1 n → l[n]? = some b := by
    intro l hl
    rw [page, one_mul] at hl
    cases hdrop : l.drop n with
    | nil => simp [hdrop] at hl
    | cons x xs =>
      rw [hdrop] at hl
      obtain rfl : b = x := by simpa using hl
      have := congrArg List.head? hdrop
      rwa [List.head?_drop] at this
  have hget := hpage _ hn
  dsimp only [answers] at hget
  split at hget
  next hnj =>
    subst hnj
    rw [List.getElem?_map, List.getElem?_eq_getElem hj, hjb] at hget
    simp only [Option.map_some, Equiv.swap_apply_right, Option.some.injEq] at hget
    exact hne hget
  next hnj =>
    obtain ⟨hlt, hb'⟩ := List.getElem?_eq_some_iff.1 hget
    exact hnj (hanswerNodup.getElem_inj_iff.1 (hb'.trans hjb.symm))

end Swap

theorem pagesExact_one_iff {o : RowOrder α} {rows : List α} (hnodup : rows.Nodup) :
    PagesExact o rows 1 ↔ o.Strict rows := by
  constructor
  · intro h a ha b hb htied
    by_contra hne
    exact not_pagesExact_of_tied hnodup ha hb hne htied h
  · exact fun h => pagesExact_of_strict h 1

end Paging
