import Mathlib

/-!
# Rule languages whose rules are themselves requests

A rule grants requests, and every rule can be read as the largest request it grants (`ask`): who
grants `ask r` grants all that `r` grants (`trans`). Named bundles of rules (`M : A → Set R`)
then come with two translations: a set of rules *derives* a bundle as soon as it grants one of
the bundle's rules, and a bundle *expands* to all its rules.

* `derived_expand_iff` — deriving bundles and expanding them adds nothing exactly when the rules
  are `Closed` under `M`: a bundle of which one rule is granted is granted as a whole. The test
  requests `T` only need to contain the rules of the bundles that have two or more.
-/

/-- Rules `R` granting requests `Q`. -/
structure RuleLanguage (R Q : Type) where
  allows : R → Q → Prop
  ask : R → Q
  allows_ask : ∀ r, allows r (ask r)
  trans : ∀ s r q, allows s (ask r) → allows r q → allows s q

namespace RuleLanguage

variable {R Q A : Type} (L : RuleLanguage R Q)

/-- The requests a set of rules grants. -/
def Grants (P : Set R) (q : Q) : Prop := ∃ r ∈ P, L.allows r q

/-- The bundles a set of rules derives: one granted rule is enough. -/
def Derived (M : A → Set R) (P : Set R) : Set A := {a | ∃ r ∈ M a, L.Grants P (L.ask r)}

/-- The rules of a set of bundles. -/
def expand (M : A → Set R) (D : Set A) : Set R := {r | ∃ a ∈ D, r ∈ M a}

/-- Every bundle of which one rule is granted is granted as a whole. -/
def Closed (M : A → Set R) (P : Set R) : Prop :=
  ∀ a ∈ L.Derived M P, ∀ r ∈ M a, L.Grants P (L.ask r)

variable {L}

theorem Grants.mono {P P' : Set R} {q : Q} (h : P ⊆ P') : L.Grants P q → L.Grants P' q
  | ⟨r, hr, hq⟩ => ⟨r, h hr, hq⟩

/-- More rules derive more bundles. -/
theorem Derived.mono {M : A → Set R} {P P' : Set R} (h : P ⊆ P') : L.Derived M P ⊆ L.Derived M P' :=
  fun _ ⟨r, hr, hg⟩ => ⟨r, hr, hg.mono h⟩

theorem expand_mono {M : A → Set R} {D D' : Set A} (h : D ⊆ D') : expand M D ⊆ expand M D' :=
  fun _ ⟨a, ha, hr⟩ => ⟨a, h ha, hr⟩

theorem grants_union {P P' : Set R} {q : Q} : L.Grants (P ∪ P') q ↔ L.Grants P q ∨ L.Grants P' q := by
  simp only [Grants, Set.mem_union, or_and_right, exists_or]

theorem grants_expand {M : A → Set R} {D : Set A} {q : Q} :
    L.Grants (expand M D) q ↔ ∃ a ∈ D, L.Grants (M a) q := by
  simp only [Grants, expand, Set.mem_ofPred_eq]
  constructor
  · rintro ⟨r, ⟨a, ha, hr⟩, hq⟩; exact ⟨a, ha, r, hr, hq⟩
  · rintro ⟨a, ha, r, hr, hq⟩; exact ⟨r, ⟨a, ha, hr⟩, hq⟩

/-- Who grants a rule read as a request grants whatever the rule grants. -/
theorem Grants.trans {P : Set R} {r : R} {q : Q} : L.Grants P (L.ask r) → L.allows r q → L.Grants P q
  | ⟨s, hs, h⟩, hq => ⟨s, hs, L.trans s r q h hq⟩

/-- Requests that tell a bundle granted in part from one granted as a whole. -/
def Separates (L : RuleLanguage R Q) (M : A → Set R) (T : Set Q) : Prop :=
  ∀ a, ∀ r ∈ M a, L.ask r ∈ T ∨ ∀ r' ∈ M a, r' = r

theorem separates_univ (M : A → Set R) : L.Separates M Set.univ := fun _ _ _ => .inl trivial

/-- **Deriving and expanding adds nothing exactly when the rules are closed.** -/
theorem derived_expand_iff {M : A → Set R} {P : Set R} {T : Set Q} (hT : L.Separates M T) :
    (∀ q ∈ T, L.Grants (expand M (L.Derived M P)) q → L.Grants P q) ↔ L.Closed M P := by
  constructor
  · intro h a ha r hr
    rcases hT a r hr with hq | huniq
    · exact h _ hq (grants_expand.2 ⟨a, ha, r, hr, L.allows_ask r⟩)
    · -- the bundle's only rule is the one it was derived from
      obtain ⟨r', hr', hg⟩ := ha
      rw [huniq r' hr'] at hg
      exact hg
  · intro hc q _ hq
    obtain ⟨a, ha, r, hr, hrq⟩ := grants_expand.1 hq
    exact (hc a ha r hr).trans hrq

theorem union_expand_iff {M : A → Set R} {P : Set R} {T : Set Q} (hT : L.Separates M T) :
    (∀ q ∈ T, (L.Grants (P ∪ expand M (L.Derived M P)) q ↔ L.Grants P q)) ↔ L.Closed M P := by
  rw [← derived_expand_iff hT]
  simp only [grants_union, or_iff_left_iff_imp]

end RuleLanguage
