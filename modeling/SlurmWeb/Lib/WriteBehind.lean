import SlurmWeb.Lib.Lists

/-!
# Write-behind buffers

Rows wait under their key, the newest in place of an older one. A flush takes all of them, writes
them, and puts back what it could not write unless a newer row has come meanwhile. On its way a row
may be replaced by one that is the `same`.

* `Covered` — the invariant: the newest row of a key waits, flies, or is the last one written.
* `Covered.steps` — every step keeps it.
* `Covered.kept` — with nothing in flight, the newest row waits or is written, and no older one waits.
-/

namespace WriteBehind

structure Buffer (K R : Type) where
  /-- The row put last; the buffer does not know it. -/
  latest : K → Option R
  waiting : K → Option R
  /-- The rows a flush has taken and not yet settled. -/
  flying : List R
  written : K → Option R

variable {K R : Type}

/-- What a row may become on its way: it keeps its key. -/
structure Rewriting (key : R → K) (same : R → R → Prop) : Prop where
  refl : ∀ r, same r r
  trans : ∀ r r' r'', same r r' → same r' r'' → same r r''
  key : ∀ r r', same r r' → key r = key r'

variable [DecidableEq K]

/-- What a flush and the writers beside it do. -/
inductive Step (key : R → K) (same : R → R → Prop) : Buffer K R → Buffer K R → Prop
  | put (b : Buffer K R) (r : R) : Step key same b
      { b with latest := Function.update b.latest (key r) (some r)
               waiting := Function.update b.waiting (key r) (some r) }
  | take (b : Buffer K R) (rows : List R) (idle : b.flying = [])
      (all : ∀ k r, b.waiting k = some r → key r = k ∧ r ∈ rows) (only : ∀ r ∈ rows, b.waiting (key r) = some r) :
      Step key same b { b with waiting := fun _ => none, flying := rows }
  | write (b : Buffer K R) {r r' : R} (flies : r ∈ b.flying) (rewritten : same r r') :
      Step key same b { b with written := Function.update b.written (key r') (some r') }
  | settle (b : Buffer K R) (rows : List R)
      (all : ∀ r ∈ b.flying, (∃ r' ∈ rows, same r r') ∨ ∃ r', b.written (key r) = some r' ∧ same r r')
      (only : ∀ r' ∈ rows, ∃ r ∈ b.flying, same r r') : Step key same b { b with flying := rows }
  | requeue (b : Buffer K R) (waiting : K → Option R) (newer : ∀ k r, b.waiting k = some r → waiting k = some r)
      (older : ∀ k r, b.waiting k = none → waiting k = some r → key r = k ∧ r ∈ b.flying)
      (all : ∀ r ∈ b.flying, (waiting (key r)).isSome) :
      Step key same b { b with waiting, flying := [] }

variable {key : R → K} {same : R → R → Prop}

abbrev Steps (key : R → K) (same : R → R → Prop) : Buffer K R → Buffer K R → Prop :=
  Relation.ReflTransGen (Step key same)

/-- The newest row of every key is somewhere. -/
structure Covered (key : R → K) (same : R → R → Prop) (b : Buffer K R) : Prop where
  waiting : ∀ k r', b.waiting k = some r' → ∃ r, b.latest k = some r ∧ same r r'
  flying : ∀ r' ∈ b.flying, b.waiting (key r') = none → ∃ r, b.latest (key r') = some r ∧ same r r'
  somewhere : ∀ k r, b.latest k = some r → (b.waiting k).isSome ∨ (∃ r' ∈ b.flying, key r' = k) ∨
    ∃ r', b.written k = some r' ∧ same r r'

omit [DecidableEq K] in
theorem covered_empty : Covered key same ⟨fun _ => none, fun _ => none, [], fun _ => none⟩ where
  waiting _ _ h := by cases h
  flying _ h := by cases h
  somewhere _ _ h := by cases h

variable {b b' : Buffer K R}

theorem Covered.put (hs : Rewriting key same) (h : Covered key same b) (r : R) : Covered key same
    { b with latest := Function.update b.latest (key r) (some r)
             waiting := Function.update b.waiting (key r) (some r) } where
  waiting k r' hr' := by
    by_cases hk : k = key r
    · subst hk
      simp only [Function.update_self, Option.some.injEq] at hr' ⊢
      exact ⟨r, rfl, hr' ▸ hs.refl r⟩
    · simp only [Function.update_of_ne hk] at hr' ⊢
      exact h.waiting k r' hr'
  flying r' hr' hnone := by
    have hk : key r' ≠ key r := by
      intro hk
      simp [hk] at hnone
    simp only [Function.update_of_ne hk] at hnone ⊢
    exact h.flying r' hr' hnone
  somewhere k r' hr' := by
    by_cases hk : k = key r
    · subst hk
      exact .inl (by simp)
    · simp only [Function.update_of_ne hk] at hr' ⊢
      exact h.somewhere k r' hr'

omit [DecidableEq K] in
theorem Covered.take (h : Covered key same b) {rows : List R} (idle : b.flying = [])
    (all : ∀ k r, b.waiting k = some r → key r = k ∧ r ∈ rows) (only : ∀ r ∈ rows, b.waiting (key r) = some r) :
    Covered key same { b with waiting := fun _ => none, flying := rows } where
  waiting _ _ hr := by cases hr
  flying r' hr' _ := h.waiting _ r' (only r' hr')
  somewhere k r hr := by
    rcases h.somewhere k r hr with hw | ⟨r', hr', -⟩ | hwritten
    · obtain ⟨r', hr'⟩ := Option.isSome_iff_exists.1 hw
      exact .inr (.inl ⟨r', (all k r' hr').2, (all k r' hr').1⟩)
    · rw [idle] at hr'
      cases hr'
    · exact .inr (.inr hwritten)

theorem Covered.write (hs : Rewriting key same)
    (h : Covered key same b) {r r' : R} (flies : r ∈ b.flying) (rewritten : same r r') :
    Covered key same { b with written := Function.update b.written (key r') (some r') } where
  waiting := h.waiting
  flying := h.flying
  somewhere k s hlast := by
    by_cases hk : k = key r'
    · subst hk
      cases hw : b.waiting (key r') with
      | some w => exact .inl rfl
      | none =>
        -- nothing newer waits, so the flying row is the newest
        rw [← hs.key _ _ rewritten] at hw hlast
        obtain ⟨s', hs', hsame⟩ := h.flying r flies hw
        cases hlast.symm.trans hs'
        exact .inr (.inr ⟨r', by simp, hs.trans _ _ _ hsame rewritten⟩)
    · simp only [Function.update_of_ne hk]
      exact h.somewhere k s hlast

omit [DecidableEq K] in
theorem Covered.settle (hs : Rewriting key same)
    (h : Covered key same b) {rows : List R}
    (all : ∀ r ∈ b.flying, (∃ r' ∈ rows, same r r') ∨ ∃ r', b.written (key r) = some r' ∧ same r r')
    (only : ∀ r' ∈ rows, ∃ r ∈ b.flying, same r r') : Covered key same { b with flying := rows } where
  waiting := h.waiting
  flying r' hr' hnone := by
    obtain ⟨r, hr, hsame⟩ := only r' hr'
    rw [← hs.key _ _ hsame] at hnone ⊢
    obtain ⟨s, hlast, hsr⟩ := h.flying r hr hnone
    exact ⟨s, hlast, hs.trans _ _ _ hsr hsame⟩
  somewhere k s hlast := by
    rcases h.somewhere k s hlast with hw | ⟨r, hr, rfl⟩ | hwritten
    · exact .inl hw
    · cases hw : b.waiting (key r) with
      | some w => exact .inl rfl
      | none =>
        rcases all r hr with ⟨r', hr', hsame⟩ | ⟨r', hr', hsame⟩
        · exact .inr (.inl ⟨r', hr', (hs.key _ _ hsame).symm⟩)
        · obtain ⟨s', hs', hsr⟩ := h.flying r hr hw
          cases hlast.symm.trans hs'
          exact .inr (.inr ⟨r', hr', hs.trans _ _ _ hsr hsame⟩)
    · exact .inr (.inr hwritten)

omit [DecidableEq K] in
theorem Covered.requeue (h : Covered key same b) {waiting : K → Option R}
    (newer : ∀ k r, b.waiting k = some r → waiting k = some r)
    (older : ∀ k r, b.waiting k = none → waiting k = some r → key r = k ∧ r ∈ b.flying)
    (all : ∀ r ∈ b.flying, (waiting (key r)).isSome) : Covered key same { b with waiting, flying := [] } where
  waiting k r' hr' := by
    cases hw : b.waiting k with
    | some w =>
      have hwr : w = r' := Option.some.inj ((newer k w hw).symm.trans hr')
      exact hwr ▸ h.waiting k w hw
    | none =>
      obtain ⟨rfl, hr⟩ := older k r' hw hr'
      exact h.flying r' hr hw
  flying _ hr' _ := by cases hr'
  somewhere k s hs := by
    rcases h.somewhere k s hs with hw | ⟨r, hr, rfl⟩ | hwritten
    · obtain ⟨w, hwait⟩ := Option.isSome_iff_exists.1 hw
      exact .inl (Option.isSome_iff_exists.2 ⟨w, newer k w hwait⟩)
    · exact .inl (all r hr)
    · exact .inr (.inr hwritten)

theorem Covered.step (hs : Rewriting key same) (h : Covered key same b) (hstep : Step key same b b') :
    Covered key same b' := by
  cases hstep with
  | put r => exact h.put hs r
  | take rows idle all only => exact h.take idle all only
  | write flies rewritten => exact h.write hs flies rewritten
  | settle rows all only => exact h.settle hs all only
  | requeue waiting newer older all => exact h.requeue newer older all

theorem Covered.steps (hs : Rewriting key same) (h : Covered key same b) (hsteps : Steps key same b b') :
    Covered key same b' := by
  induction hsteps with
  | refl => exact h
  | tail _ hstep ih => exact ih.step hs hstep

omit [DecidableEq K] in
/-- **Nothing is lost**: with no flush under way, what waits is the newest, and the newest waits or
was written last. -/
theorem Covered.kept (h : Covered key same b) (idle : b.flying = []) {k : K} {r : R} (hr : b.latest k = some r) :
    (∀ r', b.waiting k = some r' → same r r') ∧
      ((∃ r', b.waiting k = some r' ∧ same r r') ∨ ∃ r', b.written k = some r' ∧ same r r') := by
  have hwaiting : ∀ r', b.waiting k = some r' → same r r' := by
    intro r' hr'
    obtain ⟨s, hs, hsame⟩ := h.waiting k r' hr'
    cases hr.symm.trans hs
    exact hsame
  refine ⟨hwaiting, ?_⟩
  rcases h.somewhere k r hr with hw | ⟨r', hr', -⟩ | hwritten
  · obtain ⟨r', hr'⟩ := Option.isSome_iff_exists.1 hw
    exact .inl ⟨r', hr', hwaiting r' hr'⟩
  · rw [idle] at hr'
    cases hr'
  · exact .inr hwritten

/-! ## Sequences of steps -/

/-- A row is written and leaves. -/
theorem steps_deliver (hs : Rewriting key same) {r r' : R} {rest : List R}
    (hb : b.flying = r :: rest) (h : same r r') :
    Steps key same b { b with flying := rest, written := Function.update b.written (key r') (some r') } := by
  refine .tail (.single (.write b (hb ▸ List.mem_cons_self) h)) (.settle _ rest ?_ ?_)
  · intro s hmem
    rcases List.mem_cons.1 (hb ▸ hmem) with rfl | hmem
    · exact .inr ⟨r', by simp [hs.key _ _ h], h⟩
    · exact .inl ⟨s, hmem, hs.refl s⟩
  · exact fun s hmem => ⟨s, by rw [hb]; exact List.mem_cons_of_mem _ hmem, hs.refl s⟩

/-- Rows written one after the other. -/
def writeAll (key : R → K) (written : K → Option R) (rows : List R) : K → Option R :=
  rows.foldl (fun written r => Function.update written (key r) (some r)) written

theorem writeAll_cons (written : K → Option R) (r : R) (rows : List R) :
    writeAll key written (r :: rows) = writeAll key (Function.update written (key r) (some r)) rows := rfl

theorem writeAll_append (written : K → Option R) (rows rows' : List R) :
    writeAll key written (rows ++ rows') = writeAll key (writeAll key written rows) rows' := List.foldl_append ..

/-- The rows at the front are written and leave. -/
theorem steps_deliverAll (hs : Rewriting key same) {rows rows' rest : List R} (h : List.Forall₂ same rows rows') :
    ∀ {b : Buffer K R}, b.flying = rows ++ rest →
      Steps key same b { b with flying := rest, written := writeAll key b.written rows' } := by
  induction h with
  | nil =>
    intro b hb
    cases b
    cases hb
    exact .refl
  | cons hsame _ ih =>
    intro b hb
    exact (steps_deliver hs hb hsame).trans (ih rfl)

/-- Rows in flight are written and stay. -/
theorem steps_writeAll (rows' : List R) : ∀ {b : Buffer K R}, (∀ r' ∈ rows', ∃ r ∈ b.flying, same r r') →
    Steps key same b { b with written := writeAll key b.written rows' } := by
  induction rows' with
  | nil => exact fun _ => .refl
  | cons r' rows' ih =>
    intro b h
    obtain ⟨r, hr, hsame⟩ := h r' List.mem_cons_self
    exact .head (.write b hr hsame) (ih fun r' hr' => h r' (List.mem_cons_of_mem _ hr'))

/-- The first row is rewritten and moves to the end. -/
theorem steps_defer (hs : Rewriting key same) {r r' : R} {rest : List R} (hb : b.flying = r :: rest) (h : same r r') :
    Steps key same b { b with flying := rest ++ [r'] } := by
  refine .single (.settle b _ ?_ ?_)
  · intro s hmem
    rcases List.mem_cons.1 (hb ▸ hmem) with rfl | hmem
    · exact .inl ⟨r', by simp, h⟩
    · exact .inl ⟨s, List.mem_append_left _ hmem, hs.refl s⟩
  · intro s hmem
    rcases List.mem_append.1 hmem with hmem | hmem
    · exact ⟨s, hb ▸ List.mem_cons_of_mem _ hmem, hs.refl s⟩
    · exact ⟨r, hb ▸ List.mem_cons_self, List.mem_singleton.1 hmem ▸ h⟩

/-- The rows at the front are rewritten in place. -/
theorem steps_rewrite (hs : Rewriting key same) {rows rows' rest : List R} (hb : b.flying = rows ++ rest)
    (h : List.Forall₂ same rows rows') : Steps key same b { b with flying := rows' ++ rest } := by
  refine .single (.settle b _ ?_ ?_)
  · intro s hmem
    rcases List.mem_append.1 (hb ▸ hmem) with hmem | hmem
    · obtain ⟨s', hs', hsame⟩ := h.exists_right s hmem
      exact .inl ⟨s', List.mem_append_left _ hs', hsame⟩
    · exact .inl ⟨s, List.mem_append_right _ hmem, hs.refl s⟩
  · intro s hmem
    rcases List.mem_append.1 hmem with hmem | hmem
    · obtain ⟨s', hs', hsame⟩ := h.exists_left s hmem
      exact ⟨s', hb ▸ List.mem_append_left _ hs', hsame⟩
    · exact ⟨s, hb ▸ List.mem_append_right _ hmem, hs.refl s⟩

end WriteBehind
