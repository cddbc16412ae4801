import Mathlib

/-!
# Lists element by element

Rules for `List.Forall₂`, the relation between a list and what a loop made of it, for lists cut into
slices, for maxima, for two counts over one list, and for writes under distinct keys.
-/

namespace List

variable {α β γ : Type}

theorem Forall₂.imp_mem {R T : α → β → Prop} {l : List α} {m : List β} (h : Forall₂ R l m)
    (himp : ∀ a ∈ l, ∀ b, R a b → T a b) : Forall₂ T l m := by
  induction h with
  | nil => exact .nil
  | cons hab _ ih => exact .cons (himp _ mem_cons_self _ hab) (ih fun a ha => himp a (mem_cons_of_mem _ ha))

theorem Forall₂.exists_right {R : α → β → Prop} {l : List α} {m : List β} (h : Forall₂ R l m) :
    ∀ a ∈ l, ∃ b ∈ m, R a b := by
  induction h with
  | nil => simp
  | cons hab _ ih =>
    intro a ha
    rcases mem_cons.1 ha with rfl | ha
    · exact ⟨_, mem_cons_self, hab⟩
    · obtain ⟨b, hb, h⟩ := ih a ha
      exact ⟨b, mem_cons_of_mem _ hb, h⟩

theorem Forall₂.exists_left {R : α → β → Prop} {l : List α} {m : List β} (h : Forall₂ R l m) :
    ∀ b ∈ m, ∃ a ∈ l, R a b := h.flip.exists_right

/-- Two loops one after the other. -/
theorem Forall₂.comp {R : α → β → Prop} {S : β → γ → Prop} {T : α → γ → Prop} {l : List α} {m : List β} {n : List γ}
    (hR : Forall₂ R l m) (hS : Forall₂ S m n) (h : ∀ a b c, R a b → S b c → T a c) : Forall₂ T l n := by
  induction hR generalizing n with
  | nil =>
    cases hS
    exact .nil
  | cons hab _ ih =>
    cases hS with
    | cons hbc htail => exact .cons (h _ _ _ hab hbc) (ih htail)

theorem Forall₂.exists_mid {R : α → β → Prop} {S : β → γ → Prop} {T : α → γ → Prop} {l : List α}
    {m : List β} {n : List γ}
    (hR : Forall₂ R l m) (hS : Forall₂ S m n) (hT : Forall₂ T l n) : ∀ a ∈ l, ∃ b c, R a b ∧ S b c ∧ T a c := by
  induction hR generalizing n with
  | nil => exact fun _ h => by cases h
  | cons hab _ ih =>
    cases hS with
    | cons hbc htail =>
      cases hT with
      | cons hac htail' =>
        intro a ha
        rcases mem_cons.1 ha with rfl | ha
        · exact ⟨_, _, hab, hbc, hac⟩
        · exact ih htail htail' a ha

theorem exists_forall₂ {R : α → β → Prop} {l : List α} (h : ∀ a ∈ l, ∃ b, R a b) : ∃ m, Forall₂ R l m := by
  induction l with
  | nil => exact ⟨[], .nil⟩
  | cons a l ih =>
    obtain ⟨b, hb⟩ := h a mem_cons_self
    obtain ⟨m, hm⟩ := ih fun a ha => h a (mem_cons_of_mem _ ha)
    exact ⟨b :: m, .cons hb hm⟩

/-- Loops inside a loop. -/
theorem forall₂_flatMap {R : β → γ → Prop} {f : α → List β} {l : List α} {m : List (List γ)}
    (h : Forall₂ (fun a cs => Forall₂ R (f a) cs) l m) : Forall₂ R (l.flatMap f) m.flatten := by
  induction h with
  | nil => exact .nil
  | cons hab _ ih => exact rel_append hab ih

/-- Consecutive slices of `n` elements. -/
theorem flatten_slices (l : List α) (n : Nat) : ∀ m : Nat,
    ((range m).map fun i => (l.drop (n * i)).take n).flatten = l.take (n * m)
  | 0 => by simp
  | m + 1 => by
    rw [range_succ, map_append, flatten_append, flatten_slices l n m, Nat.mul_succ, take_add]
    simp

/-! ## Maxima -/

section
variable [LinearOrder α]

/-- Lists whose elements are bounded by those of the other have the same maximum. -/
theorem max?_eq_of_cofinal {l m : List α} (hl : ∀ a ∈ l, ∃ b ∈ m, a ≤ b) (hm : ∀ b ∈ m, ∃ a ∈ l, b ≤ a) :
    l.max? = m.max? := by
  cases hmax : l.max? with
  | none =>
    rw [max?_eq_none_iff] at hmax
    subst hmax
    have hnil : m = [] := eq_nil_iff_forall_not_mem.2 fun b hb => by simpa using hm b hb
    rw [hnil, max?_nil]
  | some top =>
    obtain ⟨htop, hle⟩ := max?_eq_some_iff.1 hmax
    obtain ⟨b, hb, hab⟩ := hl top htop
    obtain ⟨a, ha, hba⟩ := hm b hb
    obtain rfl : b = top := le_antisymm (hba.trans (hle a ha)) hab
    refine (max?_eq_some_iff.2 ⟨hb, fun c hc => ?_⟩).symm
    obtain ⟨d, hd, hcd⟩ := hm c hc
    exact hcd.trans (hle d hd)

theorem le_max? {l : List α} {a : α} (h : a ∈ l) : ∃ top ∈ l.max?, a ≤ top := by
  cases hmax : l.max? with
  | none =>
    rw [max?_eq_none_iff] at hmax
    subst hmax
    cases h
  | some top => exact ⟨top, rfl, (max?_eq_some_iff.1 hmax).2 a h⟩

theorem max?_append_max? (l m : List α) : (l.max?.toList ++ m).max? = (l ++ m).max? := by
  apply max?_eq_of_cofinal
  · intro a ha
    refine ⟨a, ?_, le_rfl⟩
    rcases mem_append.1 ha with ha | ha
    · exact mem_append_left _ (max?_mem (Option.mem_toList.1 ha))
    · exact mem_append_right _ ha
  · intro b hb
    rcases mem_append.1 hb with hb | hb
    · obtain ⟨top, htop, hle⟩ := le_max? hb
      exact ⟨top, mem_append_left _ (Option.mem_toList.2 htop), hle⟩
    · exact ⟨b, mem_append_right _ hb, le_rfl⟩

end

/-! ## Counts -/

theorem Forall₂.countP_eq {R : α → β → Prop} {p : α → Bool} {q : β → Bool} (himp : ∀ a b, R a b → p a = q b)
    {l : List α} {m : List β} (h : Forall₂ R l m) : l.countP p = m.countP q := by
  induction h with
  | nil => rfl
  | cons hab _ ih => rw [countP_cons, countP_cons, ih, himp _ _ hab]

/-- Two counts agree when what only one of them counts does. -/
theorem countP_eq_iff (p q : α → Bool) (l : List α) :
    l.countP p = l.countP q ↔ l.countP (fun a => p a && !q a) = l.countP fun a => q a && !p a := by
  have hsum : l.countP p + l.countP (fun a => q a && !p a) = l.countP q + l.countP fun a => p a && !q a := by
    induction l with
    | nil => rfl
    | cons a l ih =>
      simp only [countP_cons]
      cases p a <;> cases q a <;> simp <;> omega
  omega

/-! ## Writes under keys -/

section
variable {τ κ ν : Type} {write : τ → α → τ} {get : τ → κ → ν} {key : α → κ}

theorem foldl_write_other (hother : ∀ t a k, key a ≠ k → get (write t a) k = get t k) {k : κ} :
    ∀ {l : List α}, k ∉ l.map key → ∀ t, get (l.foldl write t) k = get t k
  | [], _, _ => rfl
  | a :: l, hk, t => by
    rw [map_cons, mem_cons, not_or] at hk
    rw [foldl_cons, foldl_write_other hother hk.2, hother t a k (Ne.symm hk.1)]

/-- Under its own key each write is found as if it were the only one. -/
theorem foldl_write_own (hother : ∀ t a k, key a ≠ k → get (write t a) k = get t k)
    (hown : ∀ t t' a, get t (key a) = get t' (key a) → get (write t a) (key a) = get (write t' a) (key a)) :
    ∀ {l : List α}, (l.map key).Nodup → ∀ a ∈ l, ∀ t, get (l.foldl write t) (key a) = get (write t a) (key a)
  | [], _, _, ha, _ => by cases ha
  | b :: l, hl, a, ha, t => by
    rw [map_cons, nodup_cons] at hl
    rw [foldl_cons]
    rcases mem_cons.1 ha with rfl | ha
    · exact foldl_write_other hother hl.1 _
    · rw [foldl_write_own hother hown hl.2 a ha]
      refine hown _ _ a (hother t b _ fun hkey => hl.1 ?_)
      rw [hkey]
      exact mem_map_of_mem ha

/-- Writes under distinct keys, in any order. -/
theorem foldl_write_perm (hother : ∀ t a k, key a ≠ k → get (write t a) k = get t k)
    (hown : ∀ t t' a, get t (key a) = get t' (key a) → get (write t a) (key a) = get (write t' a) (key a))
    {l m : List α} (hl : (l.map key).Nodup) (hperm : m.Perm l) (t : τ) (k : κ) :
    get (m.foldl write t) k = get (l.foldl write t) k := by
  have hkeys := hperm.map key
  by_cases hk : k ∈ l.map key
  · obtain ⟨a, ha, rfl⟩ := mem_map.1 hk
    rw [foldl_write_own hother hown hl a ha, foldl_write_own hother hown (hkeys.nodup_iff.2 hl) a (hperm.mem_iff.2 ha)]
  · rw [foldl_write_other hother hk, foldl_write_other hother fun hm => hk (hkeys.mem_iff.1 hm)]

end

end List
