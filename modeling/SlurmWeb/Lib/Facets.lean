import Mathlib

/-!
# Conditions on independent parts

Two conditions that ask something of every part of a thing, of one part apart from the others.

* `forall_iff_forall` — they mean the same if and only if they ask the same of each part, or neither can be met.
-/

namespace SlurmWeb.Facets

variable {ι : Type} [DecidableEq ι] {X : ι → Type}

/-- Where each part of `q` can be met, a part of `p` that always brings all of `q` brings its own. -/
theorem part_of_forall {p q : ∀ i, X i → Prop} (h : ∀ x : ∀ i, X i, (∀ i, p i (x i)) → ∀ i, q i (x i))
    (hp : ∀ i, ∃ x, p i x) (i : ι) (x : X i) (hx : p i x) : q i x := by
  choose w hw using hp
  have hall : ∀ j, p j (Function.update w i x j) := fun j => by
    rcases eq_or_ne j i with rfl | hne
    · rwa [Function.update_self]
    · rw [Function.update_of_ne hne]
      exact hw j
  have hq := h _ hall i
  rwa [Function.update_self] at hq

theorem forall_iff_forall {p q : ∀ i, X i → Prop} : (∀ x : ∀ i, X i, (∀ i, p i (x i)) ↔ ∀ i, q i (x i)) ↔
    (∀ i x, p i x ↔ q i x) ∨ (∃ i, ∀ x, ¬ p i x) ∧ ∃ i, ∀ x, ¬ q i x := by
  constructor
  · intro h
    have met : ∀ {p q : ∀ i, X i → Prop}, (∀ x : ∀ i, X i, (∀ i, p i (x i)) → ∀ i, q i (x i)) → (∀ i, ∃ x, p i x) →
        ∀ i, ∃ x, q i x := fun h hp i => by
      obtain ⟨x, hx⟩ := hp i
      exact ⟨x, part_of_forall h hp i x hx⟩
    by_cases hp : ∀ i, ∃ x, p i x
    · have hq := met (fun x => (h x).1) hp
      exact .inl fun i x => ⟨part_of_forall (fun x => (h x).1) hp i x, part_of_forall (fun x => (h x).2) hq i x⟩
    · refine .inr ⟨by simpa using hp, ?_⟩
      by_contra hq
      exact hp (met (fun x => (h x).2) (by simpa using hq))
  · rintro (hsame | ⟨⟨i, hi⟩, j, hj⟩) x
    · exact forall_congr' fun i => hsame i (x i)
    · exact ⟨fun hp => absurd (hp i) (hi _), fun hq => absurd (hq j) (hj _)⟩

end SlurmWeb.Facets
