import Mathlib

/-!
# Following redirects

A step either settles at a result or sends the caller on to another target, changing a state on
the way. `follow` repeats it. Two rules are all a user of it needs: a measure that every
redirect decreases bounds the steps (`follow_isSome`), and what redirects preserve holds where the
chain settles (`follow_induct`).
-/

namespace Redirects

/-- Where a step leaves its caller. -/
inductive Next (α β : Type)
  | goto (target : α)
  | stop (result : β)
  deriving DecidableEq

variable {σ α β : Type} {step : σ → α → σ × Next α β}

def follow (step : σ → α → σ × Next α β) : Nat → σ → α → Option (σ × β)
  | 0, _, _ => none
  | fuel + 1, s, a =>
    match step s a with
    | (s', .goto a') => follow step fuel s' a'
    | (s', .stop b) => some (s', b)

theorem follow_goto {s s' : σ} {a a' : α} (h : step s a = (s', .goto a')) (fuel : Nat) :
    follow step (fuel + 1) s a = follow step fuel s' a' := by
  simp [follow, h]

theorem follow_stop {s s' : σ} {a : α} {b : β} (h : step s a = (s', .stop b)) (fuel : Nat) :
    follow step (fuel + 1) s a = some (s', b) := by
  simp [follow, h]

/-- A measure that decreases with every redirect bounds the length of a chain. -/
theorem follow_isSome (rank : σ → α → Nat)
    (hlt : ∀ s a s' a', step s a = (s', .goto a') → rank s' a' < rank s a) :
    ∀ (n : Nat) (s : σ) (a : α), rank s a < n → ∃ r, follow step n s a = some r := by
  intro n
  induction n with
  | zero => intro s a h; omega
  | succ n ih =>
    intro s a h
    rcases hs : step s a with ⟨s', a' | b⟩
    · rw [follow_goto hs]
      have := hlt s a s' a' hs
      exact ih s' a' (by omega)
    · exact ⟨(s', b), follow_stop hs n⟩

/-- What every redirect preserves holds at the step that settles. -/
theorem follow_induct (P : σ → α → Prop) (hP : ∀ s a s' a', P s a → step s a = (s', .goto a') → P s' a') :
    ∀ {n : Nat} {s : σ} {a : α} {s' : σ} {b : β}, P s a → follow step n s a = some (s', b) →
      ∃ s₁ a₁, P s₁ a₁ ∧ step s₁ a₁ = (s', .stop b) := by
  intro n
  induction n with
  | zero => intro s a s' b _ h; simp [follow] at h
  | succ n ih =>
    intro s a s' b hp h
    rcases hs : step s a with ⟨s₁, a₁ | b₁⟩
    · rw [follow_goto hs] at h
      exact ih (hP s a s₁ a₁ hp hs) h
    · rw [follow_stop hs] at h
      cases h
      exact ⟨s, a, hp, hs⟩

end Redirects
