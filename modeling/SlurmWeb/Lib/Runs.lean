import Mathlib

/-!
# Maximal runs

The maximal runs of a list: blocks of consecutive elements that are all `hot`, each `near` the one before
it. A list is cut between two elements that are not both hot and near, and the runs are the hot blocks.

* `mem_runs_iff` — `runs` lists the maximal runs, each with the number of elements before it.
* `runs_increasing` — they lie one after the other.
* `existsUnique_run` — a hot element lies in exactly one.
* `runs_eq_singleton_iff` — a list of hot elements is one run when each is near the one before it.
-/

namespace Runs

variable {α : Type}

/-- Blocks, each with the number of elements before it. -/
def offsets (k : Nat) : List (List α) → List (Nat × List α)
  | [] => []
  | b :: bs => (k, b) :: offsets (k + b.length) bs

theorem mem_offsets {k i : Nat} {b : List α} {bs : List (List α)} :
    (i, b) ∈ offsets k bs ↔ ∃ front back, bs = front ++ b :: back ∧ i = k + front.flatten.length := by
  induction bs generalizing k with
  | nil => simp [offsets]
  | cons c bs ih =>
    rw [offsets, List.mem_cons, ih]
    constructor
    · rintro (h | ⟨front, back, rfl, rfl⟩)
      · cases h
        exact ⟨[], bs, rfl, by simp⟩
      · exact ⟨c :: front, back, rfl, by simp; omega⟩
    · rintro ⟨_ | ⟨c', front⟩, back, hbs, rfl⟩
      · cases hbs
        exact .inl (by simp)
      · cases hbs
        exact .inr ⟨front, back, rfl, by simp; omega⟩

theorem map_snd_offsets (k : Nat) (bs : List (List α)) : (offsets k bs).map Prod.snd = bs := by
  induction bs generalizing k with
  | nil => rfl
  | cons b bs ih => rw [offsets, List.map_cons, ih]

/-- Blocks lie one after the other. -/
theorem offsets_increasing (k : Nat) (bs : List (List α)) :
    (∀ p ∈ offsets k bs, k ≤ p.1) ∧ (offsets k bs).Pairwise fun p q => p.1 + p.2.length ≤ q.1 := by
  induction bs generalizing k with
  | nil => simp [offsets]
  | cons b bs ih =>
    obtain ⟨hle, hpairwise⟩ := ih (k + b.length)
    refine ⟨?_, List.pairwise_cons.2 ⟨fun p hp => hle p hp, hpairwise⟩⟩
    intro p hp
    rcases List.mem_cons.1 hp with rfl | hp
    · exact le_rfl
    · exact (Nat.le_add_right _ _).trans (hle p hp)

/-- Two blocks with their positions do not overlap. -/
def Apart (p q : Nat × List α) : Prop := p.1 + p.2.length ≤ q.1 ∨ q.1 + q.2.length ≤ p.1

instance : Std.Symm (@Apart α) := ⟨fun _ _ h => h.symm⟩

theorem Apart.of_le {p q : Nat × List α} (h : p.1 + p.2.length ≤ q.1) : Apart p q := .inl h

section
variable (hot : α → Bool) (near : α → α → Bool)

def linked (a b : α) : Bool := hot a && hot b && near a b

def blocks (l : List α) : List (List α) := l.splitBy (linked hot near)

def runs (l : List α) : List (Nat × List α) := (offsets 0 (blocks hot near l)).filter fun p => p.2.all hot

/-- The elements from the `i`-th on are a run, and neither neighbour of it could be added. -/
structure MaximalRun (l : List α) (i : Nat) (run : List α) : Prop where
  nonempty : run ≠ []
  cut : l.take i ++ (run ++ l.drop (i + run.length)) = l
  allHot : ∀ a ∈ run, hot a = true
  allNear : run.IsChain fun a b => near a b = true
  left : ∀ a ∈ (l.take i).getLast?, ∀ b ∈ run.head?, ¬ (hot a = true ∧ near a b = true)
  right : ∀ a ∈ run.getLast?, ∀ b ∈ (l.drop (i + run.length)).head?, ¬ (hot b = true ∧ near a b = true)

end

variable {hot : α → Bool} {near : α → α → Bool} {l : List α}

/-- The blocks, element by element: `block` ends with `a`, and the elements after it are to come. -/
def grow (r : α → α → Bool) (block : List α) (a : α) : List α → List (List α)
  | [] => [block]
  | b :: l => if r a b then grow r (block ++ [b]) b l else block :: grow r [b] b l

theorem splitByLoop_eq_grow {r : α → α → Bool} (g : List α) (gs : List (List α)) (a : α) (l : List α) :
    List.splitBy.loop r l a g gs = gs.reverse ++ grow r (g.reverse ++ [a]) a l := by
  induction l generalizing a g gs with
  | nil => simp [List.splitBy.loop, grow]
  | cons b l ih =>
    rw [List.splitBy.loop, grow]
    cases h : r a b with
    | true => simp [ih]
    | false => simp [ih]

theorem splitBy_eq_grow (r : α → α → Bool) (a : α) (l : List α) : (a :: l).splitBy r = grow r [a] a l := by
  rw [List.splitBy, splitByLoop_eq_grow]
  simp

theorem linked_iff {a b : α} : linked hot near a b = true ↔ hot a = true ∧ hot b = true ∧ near a b = true := by
  simp [linked, and_assoc]

/-- A block is hot, or one element that is not. -/
theorem hot_or_single {b : List α} (h : b.IsChain fun x y => linked hot near x y = true) (hne : b ≠ []) :
    (∀ a ∈ b, hot a = true) ∨ ∃ a, b = [a] ∧ hot a = false := by
  induction b with
  | nil => exact absurd rfl hne
  | cons a b ih =>
    cases b with
    | nil =>
      cases ha : hot a with
      | false => exact .inr ⟨a, rfl, ha⟩
      | true => exact .inl (by simpa using ha)
    | cons c b =>
      rw [List.isChain_cons_cons] at h
      obtain ⟨ha, hc, -⟩ := linked_iff.1 h.1
      rcases ih h.2 (by simp) with hall | ⟨x, hx, hcold⟩
      · left
        intro y hy
        rcases List.mem_cons.1 hy with rfl | hy
        · exact ha
        · exact hall y hy
      · obtain ⟨rfl, rfl⟩ := List.cons.inj hx
        rw [hc] at hcold
        cases hcold

theorem chain_linked_iff {run : List α} (h : ∀ a ∈ run, hot a = true) :
    (run.IsChain fun x y => linked hot near x y = true) ↔ run.IsChain fun a b => near a b = true := by
  induction run with
  | nil => simp
  | cons a run ih =>
    cases run with
    | nil => simp
    | cons b run =>
      have hb := h b (by simp)
      rw [List.isChain_cons_cons, List.isChain_cons_cons, ih fun x hx => h x (List.mem_cons_of_mem _ hx), linked_iff]
      simp [h a, hb]

/-- The cut of a list around a block. -/
theorem blocks_around {before run after : List α} (hne : run ≠ [])
    (hchain : run.IsChain fun x y => linked hot near x y = true)
    (hleft : ∀ a ∈ before.getLast?, ∀ b ∈ run.head?, linked hot near a b = false)
    (hright : ∀ a ∈ run.getLast?, ∀ b ∈ after.head?, linked hot near a b = false) :
    blocks hot near (before ++ (run ++ after)) = blocks hot near before ++ run :: blocks hot near after := by
  have hhead : (run ++ after).head? = run.head? := by
    rw [List.head?_append_of_ne_nil _ hne]
  rw [blocks, List.splitBy_append (by rwa [hhead]), List.splitBy_append hright, List.splitBy_of_isChain hne hchain]
  rfl

/-- Around a block that is listed, neighbours are not linked. -/
theorem unlinked_of_blocks {front back : List (List α)} {run : List α} (h : blocks hot near l = front ++ run :: back) :
    (∀ a ∈ front.flatten.getLast?, ∀ b ∈ run.head?, linked hot near a b = false) ∧
      ∀ a ∈ run.getLast?, ∀ b ∈ back.flatten.head?, linked hot near a b = false := by
  have hne : ∀ b ∈ front ++ run :: back, b ≠ [] := by
    intro b hb
    rw [← h] at hb
    exact List.ne_nil_of_mem_splitBy hb
  have hchain := List.isChain_getLast_head_splitBy (linked hot near) l
  rw [← blocks, h, List.isChain_append] at hchain
  obtain ⟨-, hback, hfront⟩ := hchain
  constructor
  · intro a ha b hb
    rcases List.eq_nil_or_concat front with rfl | ⟨front', block, rfl⟩
    · simp at ha
    · obtain ⟨hblock, hrun, hlink⟩ := hfront block (by simp) run rfl
      rw [List.concat_eq_append, List.flatten_append, List.flatten_singleton,
        List.getLast?_append_of_ne_nil _ hblock] at ha
      rwa [← List.getLast_of_mem_getLast? ha, ← List.head_of_mem_head? hb]
  · intro a ha b hb
    cases back with
    | nil => simp at hb
    | cons block back =>
      rw [List.isChain_cons_cons] at hback
      obtain ⟨hrun, hblock, hlink⟩ := hback.1
      rw [List.flatten_cons, List.head?_append_of_ne_nil _ hblock] at hb
      rwa [← List.getLast_of_mem_getLast? ha, ← List.head_of_mem_head? hb]

theorem mem_runs {i : Nat} {run : List α} : (i, run) ∈ runs hot near l ↔
    (∃ front back, blocks hot near l = front ++ run :: back ∧ i = front.flatten.length) ∧ ∀ a ∈ run, hot a = true := by
  rw [runs, List.mem_filter, mem_offsets]
  simp

/-- **The runs are the maximal ones.** -/
theorem mem_runs_iff {i : Nat} {run : List α} : (i, run) ∈ runs hot near l ↔ MaximalRun hot near l i run := by
  rw [mem_runs]
  constructor
  · rintro ⟨⟨front, back, hblocks, rfl⟩, hhot⟩
    have hmem : run ∈ blocks hot near l := by rw [hblocks]; simp
    have hne : run ≠ [] := List.ne_nil_of_mem_splitBy hmem
    have hl : l = front.flatten ++ (run ++ back.flatten) := by
      rw [← List.flatten_splitBy (linked hot near) l, ← blocks, hblocks]
      simp
    have htake : l.take front.flatten.length = front.flatten := by rw [hl, List.take_left]
    have hdrop : l.drop (front.flatten.length + run.length) = back.flatten := by
      rw [hl, ← List.append_assoc, ← List.length_append, List.drop_left]
    obtain ⟨hleft, hright⟩ := unlinked_of_blocks hblocks
    refine ⟨hne, by rw [htake, hdrop, ← hl], hhot, (chain_linked_iff hhot).1 (List.isChain_of_mem_splitBy hmem), ?_, ?_⟩
    · rw [htake]
      rintro a ha b hb ⟨hota, hnear⟩
      have hlink := hleft a ha b hb
      rw [linked_iff.2 ⟨hota, hhot b (List.mem_of_mem_head? hb), hnear⟩] at hlink
      cases hlink
    · rw [hdrop]
      rintro a ha b hb ⟨hotb, hnear⟩
      have hlink := hright a ha b hb
      rw [linked_iff.2 ⟨hhot a (List.mem_of_mem_getLast? ha), hotb, hnear⟩] at hlink
      cases hlink
  · intro h
    refine ⟨⟨blocks hot near (l.take i), blocks hot near (l.drop (i + run.length)), ?_, ?_⟩, h.allHot⟩
    · rw [← blocks_around h.nonempty ((chain_linked_iff h.allHot).2 h.allNear), h.cut]
      · intro a ha b hb
        exact Bool.eq_false_iff.2 fun hlink => h.left a ha b hb ⟨(linked_iff.1 hlink).1, (linked_iff.1 hlink).2.2⟩
      · intro a ha b hb
        exact Bool.eq_false_iff.2 fun hlink => h.right a ha b hb (linked_iff.1 hlink).2
    · have hlength := congrArg List.length h.cut
      have hpos := List.length_pos_of_ne_nil h.nonempty
      rw [blocks, List.flatten_splitBy]
      simp only [List.length_append, List.length_take, List.length_drop] at hlength ⊢
      omega

theorem runs_increasing : (runs hot near l).Pairwise fun p q => p.1 + p.2.length ≤ q.1 :=
  (offsets_increasing 0 _).2.filter _

theorem runs_nodup : (runs hot near l).Nodup := by
  refine runs_increasing.imp_of_mem ?_
  rintro ⟨i, run⟩ q hp - hle rfl
  have hpos := List.length_pos_of_ne_nil (mem_runs_iff.1 hp).nonempty
  simp only at hle
  omega

/-- The block an element lies in. -/
theorem exists_block {bs : List (List α)} {k n : Nat} (hn : n < bs.flatten.length) :
    ∃ p ∈ offsets k bs, p.1 ≤ k + n ∧ k + n < p.1 + p.2.length ∧ ∀ a, bs.flatten[n]? = some a → a ∈ p.2 := by
  induction bs generalizing k n with
  | nil => simp at hn
  | cons b bs ih =>
    rw [List.flatten_cons, List.length_append] at hn
    by_cases hb : n < b.length
    · refine ⟨(k, b), List.mem_cons_self, Nat.le_add_right _ _, by simpa using hb, fun a ha => ?_⟩
      rw [List.flatten_cons, List.getElem?_append_left hb] at ha
      exact List.mem_of_getElem? ha
    · obtain ⟨p, hp, hle, hlt, hmem⟩ := @ih (k + b.length) (n - b.length) (by omega)
      refine ⟨p, List.mem_cons_of_mem _ hp, by omega, by omega, fun a ha => hmem a ?_⟩
      rwa [List.flatten_cons, List.getElem?_append_right (by omega)] at ha

/-- **A hot element lies in exactly one run.** -/
theorem existsUnique_run {n : Nat} {a : α} (ha : l[n]? = some a) (hhot : hot a = true) :
    ∃! p, p ∈ runs hot near l ∧ p.1 ≤ n ∧ n < p.1 + p.2.length := by
  have hn : n < (blocks hot near l).flatten.length := by
    rw [blocks, List.flatten_splitBy]
    exact (List.getElem?_eq_some_iff.1 ha).1
  obtain ⟨p, hp, hle, hlt, hmem⟩ := @exists_block _ _ 0 n hn
  rw [blocks, List.flatten_splitBy] at hmem
  have hap := hmem a ha
  have hblock : p.2 ∈ blocks hot near l := by
    rw [← map_snd_offsets 0 (blocks hot near l)]
    exact List.mem_map_of_mem hp
  have hrun : p ∈ runs hot near l := by
    rw [runs, List.mem_filter, List.all_eq_true]
    refine ⟨hp, ?_⟩
    rcases hot_or_single (List.isChain_of_mem_splitBy hblock)
        (List.ne_nil_of_mem_splitBy hblock) with hall | ⟨x, hx, hcold⟩
    · exact hall
    · rw [hx, List.mem_singleton] at hap
      rw [← hap, hhot] at hcold
      cases hcold
  refine ⟨p, ⟨hrun, by simpa using hle, by simpa using hlt⟩, ?_⟩
  rintro q ⟨hq, hqle, hqlt⟩
  by_contra hne
  rcases (runs_increasing.imp Apart.of_le).forall hq hrun hne with h | h
  · omega
  · omega

/-- No other element lies in one. -/
theorem hot_of_run {n : Nat} {a : α} (ha : l[n]? = some a) {p : Nat × List α} (hp : p ∈ runs hot near l) (hle : p.1 ≤ n)
    (hlt : n < p.1 + p.2.length) : hot a = true := by
  have hrun := mem_runs_iff.1 hp
  have hn := (List.getElem?_eq_some_iff.1 ha).1
  have htake : (l.take p.1).length = p.1 := by
    rw [List.length_take]
    omega
  rw [← hrun.cut, List.getElem?_append_right (by omega), htake, List.getElem?_append_left (by omega)] at ha
  exact hrun.allHot a (List.mem_of_getElem? ha)

theorem runs_of_hot (hhot : ∀ a ∈ l, hot a = true) : runs hot near l = offsets 0 (blocks hot near l) := by
  refine List.filter_eq_self.2 fun p hp => List.all_eq_true.2 fun a ha => hhot a ?_
  have hblock : p.2 ∈ blocks hot near l := by
    rw [← map_snd_offsets 0 (blocks hot near l)]
    exact List.mem_map_of_mem hp
  rw [← List.flatten_splitBy (linked hot near) l]
  exact List.mem_flatten.2 ⟨p.2, hblock, ha⟩

theorem runs_of_chain (hne : l ≠ []) (hhot : ∀ a ∈ l, hot a = true) (h : l.IsChain fun a b => near a b = true) :
    runs hot near l = [(0, l)] := by
  rw [runs_of_hot hhot, blocks, List.splitBy_of_isChain hne ((chain_linked_iff hhot).2 h)]
  rfl

/-- A list of hot elements is one run when each is near the one before it. -/
theorem runs_eq_singleton_iff (hne : l ≠ []) (hhot : ∀ a ∈ l, hot a = true) :
    (∃ p, runs hot near l = [p]) ↔ l.IsChain fun a b => near a b = true := by
  refine ⟨?_, fun h => ⟨_, runs_of_chain hne hhot h⟩⟩
  rintro ⟨p, hp⟩
  have hblocks : blocks hot near l = [p.2] := by
    rw [← map_snd_offsets 0 (blocks hot near l), ← runs_of_hot hhot, hp, List.map_singleton]
  have hl : p.2 = l := by
    rw [← List.flatten_splitBy (linked hot near) l, ← blocks, hblocks, List.flatten_singleton]
  rw [← chain_linked_iff hhot, ← hl]
  exact List.isChain_of_mem_splitBy (by rw [← blocks, hblocks]; exact List.mem_singleton_self _)

end Runs
