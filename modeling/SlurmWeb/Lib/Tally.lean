import Mathlib

/-!
# Counters under keys, their total, and workers that zero them

A count lists its key, adds one to the key's counter, then one to the total, in three moves. A
clearing zeroes the total, reads the listed keys, drops their counters one by one, and empties the
list. Workers move in any order.

* `Inv` — the invariant, for moves that never let a count and a clearing overlap.
* `step_inv` — every move keeps it.
* `Inv.total_eq` — with every worker at its end, the total is the sum of the counters.
-/

namespace Tally

variable {α : Type}

@[ext] structure Counters (α : Type) where
  keys : List α
  counter : α → Nat
  total : Nat

/-- The sum of the counters of the listed keys. -/
def Counters.sum (m : Counters α) : Nat := (m.keys.map m.counter).sum

/-- What a worker does next. -/
inductive Phase (α : Type)
  | enlist (key : α)
  | add (key : α)
  | addTotal
  | zero
  | read
  | drop (keys : List α)
  | ended

/-- A count under way. -/
def Phase.counting : Phase α → Bool
  | .add _ | .addTotal => true
  | _ => false

/-- A clearing under way. -/
def Phase.clearing : Phase α → Bool
  | .read | .drop _ => true
  | _ => false

/-- The key is counted, the total is not. -/
def Phase.owes : Phase α → Bool
  | .addTotal => true
  | _ => false

/-- What the total misses. -/
def owed (ws : Multiset (Phase α)) : Nat := ws.countP fun p => p.owes = true

inductive Move [DecidableEq α] : Counters α → Phase α → Counters α → Phase α → Prop
  | enlist (m : Counters α) (k : α) : Move m (.enlist k) { m with keys := m.keys.insert k } (.add k)
  | add (m : Counters α) (k : α) : Move m (.add k)
      { m with counter := Function.update m.counter k (m.counter k + 1) } .addTotal
  | addTotal (m : Counters α) : Move m .addTotal { m with total := m.total + 1 } .ended
  | zero (m : Counters α) : Move m .zero { m with total := 0 } .read
  | read (m : Counters α) (ks : List α) (all : ks.Perm m.keys) : Move m .read m (.drop ks)
  | drop (m : Counters α) (k : α) (ks : List α) : Move m (.drop (k :: ks))
      { m with counter := Function.update m.counter k 0 } (.drop ks)
  | empty (m : Counters α) : Move m (.drop []) { m with keys := [] } .ended

/-- A count begins while nothing clears, a clearing while nothing counts. -/
def Apart (others : Multiset (Phase α)) : Phase α → Prop
  | .enlist _ => ∀ q ∈ others, q.clearing = false
  | .zero => ∀ q ∈ others, q.counting = false
  | _ => True

inductive Step [DecidableEq α] : Counters α → Multiset (Phase α) → Counters α → Multiset (Phase α) → Prop
  | run {m m' : Counters α} {p p' : Phase α} (others : Multiset (Phase α)) (apart : Apart others p)
      (move : Move m p m' p') : Step m (p ::ₘ others) m' (p' ::ₘ others)

/-! ## Sums -/

@[simp] theorem owed_cons (p : Phase α) (ws : Multiset (Phase α)) :
    owed (p ::ₘ ws) = owed ws + if p.owes = true then 1 else 0 :=
  Multiset.countP_cons _ _ _

theorem owed_eq_zero {ws : Multiset (Phase α)} (h : ∀ p ∈ ws, p.counting = false) : owed ws = 0 := by
  refine Multiset.countP_eq_zero.2 ?_
  intro p hp howes
  have hcounting := h p hp
  cases p with
  | addTotal => cases hcounting
  | _ => cases howes

/-- A key that is not listed counts nothing. -/
theorem sum_insert [DecidableEq α] (m : Counters α) {k : α} (h : m.counter k ≠ 0 → k ∈ m.keys) :
    ((m.keys.insert k).map m.counter).sum = m.sum := by
  by_cases hk : k ∈ m.keys
  · rw [List.insert_of_mem hk]
    rfl
  · have hzero : m.counter k = 0 := by
      by_contra hne
      exact hk (h hne)
    simp [Counters.sum, List.insert_of_not_mem hk, hzero]

theorem sum_update [DecidableEq α] {keys : List α} (hkeys : keys.Nodup) {k : α} (hk : k ∈ keys) (f : α → Nat) :
    (keys.map (Function.update f k (f k + 1))).sum = (keys.map f).sum + 1 := by
  induction keys with
  | nil => cases hk
  | cons a keys ih =>
    obtain ⟨ha, hkeys⟩ := List.nodup_cons.1 hkeys
    by_cases hka : k = a
    · subst hka
      have hrest : keys.map (Function.update f k (f k + 1)) = keys.map f := by
        refine List.map_congr_left fun b hb => Function.update_of_ne ?_ _ _
        rintro rfl
        exact ha hb
      simp only [List.map_cons, List.sum_cons, hrest, Function.update_self]
      omega
    · have hmem : k ∈ keys := (List.mem_cons.1 hk).resolve_left hka
      simp only [List.map_cons, List.sum_cons, ih hkeys hmem, Function.update_of_ne (Ne.symm hka)]
      omega

/-! ## The invariant -/

structure Inv (m : Counters α) (ws : Multiset (Phase α)) : Prop where
  nodup : m.keys.Nodup
  /-- What is counted is listed. -/
  listed : ∀ k, m.counter k ≠ 0 → k ∈ m.keys
  joined : ∀ k, Phase.add k ∈ ws → k ∈ m.keys
  apart : ∀ p ∈ ws, ∀ q ∈ ws, p.counting = true → q.clearing = false
  zeroed : ∀ p ∈ ws, p.clearing = true → m.total = 0
  /-- What a clearing has yet to drop. -/
  dropped : ∀ ks, Phase.drop ks ∈ ws → ∀ k, m.counter k ≠ 0 → k ∈ ks
  balance : (∀ p ∈ ws, p.clearing = false) → m.total + owed ws = m.sum

/-- Nothing has been counted. -/
theorem inv_start {ws : Multiset (Phase α)} (hcounting : ∀ p ∈ ws, p.counting = false)
    (hclearing : ∀ p ∈ ws, p.clearing = false) : Inv ⟨[], fun _ => 0, 0⟩ ws where
  nodup := List.nodup_nil
  listed k hk := absurd rfl hk
  joined k hk := by cases hcounting _ hk
  apart _ _ q hq _ := hclearing q hq
  zeroed _ _ _ := rfl
  dropped _ _ k hk := absurd rfl hk
  balance _ := by simp [owed_eq_zero hcounting, Counters.sum]

/-- **Once all are done the total is the sum**. -/
theorem Inv.total_eq {m : Counters α} {ws : Multiset (Phase α)} (h : Inv m ws) (done : ∀ p ∈ ws, p = .ended) :
    m.total = m.sum := by
  have hnone : owed ws = 0 := owed_eq_zero fun p hp => by rw [done p hp]; rfl
  have hbalance := h.balance fun p hp => by rw [done p hp]; rfl
  omega

section Moves

variable {m : Counters α} {p p' : Phase α} {others : Multiset (Phase α)}

theorem Inv.others_not_clearing (h : Inv m (p ::ₘ others)) (hp : p.counting = true) :
    ∀ q ∈ others, q.clearing = false :=
  fun q hq => h.apart p (Multiset.mem_cons_self _ _) q (Multiset.mem_cons_of_mem hq) hp

theorem Inv.others_not_counting (h : Inv m (p ::ₘ others)) (hp : p.clearing = true) :
    ∀ q ∈ others, q.counting = false := by
  intro q hq
  by_contra hc
  have := h.apart q (Multiset.mem_cons_of_mem hq) p (Multiset.mem_cons_self _ _) (by simpa using hc)
  simp [hp] at this

/-- The workers beside the one that moves: they keep their keys listed, and their drops cover what is
counted, where the counters are. -/
theorem Inv.frame (h : Inv m (p ::ₘ others)) : (∀ k, Phase.add k ∈ others → k ∈ m.keys) ∧
    (∀ ks, Phase.drop ks ∈ others → ∀ k, m.counter k ≠ 0 → k ∈ ks) :=
  ⟨fun k hk => h.joined k (Multiset.mem_cons_of_mem hk), fun ks hks => h.dropped ks (Multiset.mem_cons_of_mem hks)⟩

/-- With no clearing about, the sums balance. -/
theorem Inv.balance_cons (h : Inv m (p ::ₘ others)) (hp : p.clearing = false) (hq : ∀ q ∈ others, q.clearing = false) :
    m.total + (owed others + if p.owes = true then 1 else 0) = m.sum := by
  rw [← owed_cons]
  refine h.balance ?_
  rw [Multiset.forall_mem_cons]
  exact ⟨hp, hq⟩

/-- A move of a worker that counts: no clearing is about. -/
theorem inv_of_no_clearing (hnodup : m.keys.Nodup) (hlisted : ∀ k, m.counter k ≠ 0 → k ∈ m.keys)
    (hjoined : ∀ k, Phase.add k ∈ p ::ₘ others → k ∈ m.keys) (hp : p.clearing = false)
    (hq : ∀ q ∈ others, q.clearing = false)
    (hbalance : m.total + (owed others + if p.owes = true then 1 else 0) = m.sum) : Inv m (p ::ₘ others) := by
  have hclear : ∀ q ∈ p ::ₘ others, q.clearing = false := by
    rw [Multiset.forall_mem_cons]
    exact ⟨hp, hq⟩
  refine ⟨hnodup, hlisted, hjoined, fun _ _ q hq _ => hclear q hq, ?_, ?_, ?_⟩
  · intro q hq hc
    simp [hclear q hq] at hc
  · intro ks hks
    cases hclear _ hks
  · intro _
    rw [owed_cons]
    exact hbalance

/-- A move of a worker that clears: no count is about. -/
theorem inv_of_clearing (hnodup : m.keys.Nodup) (hlisted : ∀ k, m.counter k ≠ 0 → k ∈ m.keys)
    (hp : p.clearing = true) (hq : ∀ q ∈ others, q.counting = false) (hzero : m.total = 0)
    (hdropped : ∀ ks, Phase.drop ks ∈ p ::ₘ others → ∀ k, m.counter k ≠ 0 → k ∈ ks) : Inv m (p ::ₘ others) := by
  have hcount : ∀ q ∈ p ::ₘ others, q.counting = false := by
    rw [Multiset.forall_mem_cons]
    refine ⟨?_, hq⟩
    cases p <;> first | rfl | cases hp
  refine ⟨hnodup, hlisted, ?_, ?_, fun _ _ _ => hzero, hdropped, ?_⟩
  · intro k hk
    cases hcount _ hk
  · intro q hq _ _ hc
    simp [hcount q hq] at hc
  · intro hnone
    simp [hnone p (Multiset.mem_cons_self _ _)] at hp

theorem inv_enlist [DecidableEq α] {k : α} (h : Inv m (.enlist k ::ₘ others))
    (hapart : ∀ q ∈ others, q.clearing = false) :
    Inv { m with keys := m.keys.insert k } (.add k ::ₘ others) := by
  refine inv_of_no_clearing h.nodup.insert (fun j hj => List.mem_insert_of_mem (h.listed j hj)) ?_ rfl hapart ?_
  · intro j hj
    rcases Multiset.mem_cons.1 hj with hj | hj
    · cases hj
      exact List.mem_insert_self
    · exact List.mem_insert_of_mem (h.frame.1 j hj)
  · have hbefore := h.balance_cons rfl hapart
    rw [← sum_insert m (h.listed k)] at hbefore
    exact hbefore

theorem inv_add [DecidableEq α] {k : α} (h : Inv m (.add k ::ₘ others)) :
    Inv { m with counter := Function.update m.counter k (m.counter k + 1) } (.addTotal ::ₘ others) := by
  have hk : k ∈ m.keys := h.joined k (Multiset.mem_cons_self _ _)
  have hclear := h.others_not_clearing rfl
  refine inv_of_no_clearing h.nodup ?_ ?_ rfl hclear ?_
  · intro j hj
    by_cases hjk : j = k
    · exact hjk ▸ hk
    · simp only [Function.update_of_ne hjk] at hj
      exact h.listed j hj
  · intro j hj
    exact h.frame.1 j ((Multiset.mem_cons.1 hj).resolve_left (by simp))
  · have hbefore := h.balance_cons rfl hclear
    have hsum := sum_update h.nodup hk m.counter
    simp only [Phase.owes, Counters.sum, reduceIte] at hbefore hsum ⊢
    simp at hbefore
    omega

theorem inv_addTotal (h : Inv m (.addTotal ::ₘ others)) :
    Inv { m with total := m.total + 1 } (.ended ::ₘ others) := by
  have hclear := h.others_not_clearing rfl
  refine inv_of_no_clearing h.nodup h.listed ?_ rfl hclear ?_
  · intro j hj
    exact h.frame.1 j ((Multiset.mem_cons.1 hj).resolve_left (by simp))
  · have hbefore := h.balance_cons rfl hclear
    simp [Phase.owes, Counters.sum] at hbefore ⊢
    omega

theorem inv_zero (h : Inv m (.zero ::ₘ others)) (hapart : ∀ q ∈ others, q.counting = false) :
    Inv { m with total := 0 } (.read ::ₘ others) := by
  refine inv_of_clearing h.nodup h.listed rfl hapart rfl ?_
  intro ks hks
  exact h.frame.2 ks ((Multiset.mem_cons.1 hks).resolve_left (by simp))

theorem inv_read (h : Inv m (.read ::ₘ others)) {ks : List α} (hall : ks.Perm m.keys) :
    Inv m (.drop ks ::ₘ others) := by
  refine inv_of_clearing h.nodup h.listed rfl (h.others_not_counting rfl)
    (h.zeroed _ (Multiset.mem_cons_self _ _) rfl) ?_
  intro ks' hks k hk
  rcases Multiset.mem_cons.1 hks with hks | hks
  · cases hks
    exact hall.mem_iff.2 (h.listed k hk)
  · exact h.frame.2 ks' hks k hk

theorem inv_drop [DecidableEq α] {k : α} {ks : List α} (h : Inv m (.drop (k :: ks) ::ₘ others)) :
    Inv { m with counter := Function.update m.counter k 0 } (.drop ks ::ₘ others) := by
  have hcounter : ∀ j, Function.update m.counter k 0 j ≠ 0 → j ≠ k ∧ m.counter j ≠ 0 := by
    intro j hj
    by_cases hjk : j = k
    · subst hjk
      simp at hj
    · rw [Function.update_of_ne hjk] at hj
      exact ⟨hjk, hj⟩
  refine inv_of_clearing h.nodup (fun j hj => h.listed j (hcounter j hj).2) rfl (h.others_not_counting rfl)
    (h.zeroed _ (Multiset.mem_cons_self _ _) rfl) ?_
  intro ks' hks j hj
  obtain ⟨hjk, hj⟩ := hcounter j hj
  rcases Multiset.mem_cons.1 hks with hks | hks
  · cases hks
    exact (List.mem_cons.1 (h.dropped _ (Multiset.mem_cons_self _ _) j hj)).resolve_left hjk
  · exact h.frame.2 ks' hks j hj

/-- The counters are all dropped when the list is emptied, whoever else is clearing. -/
theorem inv_empty (h : Inv m (.drop [] ::ₘ others)) : Inv { m with keys := [] } (.ended ::ₘ others) := by
  have hcounter : ∀ j, m.counter j = 0 := by
    intro j
    by_contra hj
    cases h.dropped [] (Multiset.mem_cons_self _ _) j hj
  have hcounting := h.others_not_counting rfl
  have hzero := h.zeroed _ (Multiset.mem_cons_self _ _) rfl
  refine ⟨List.nodup_nil, fun j hj => absurd (hcounter j) hj, ?_, ?_, fun _ _ _ => hzero, ?_, ?_⟩
  · intro j hj
    cases hcounting _ ((Multiset.mem_cons.1 hj).resolve_left (by simp))
  · intro p hp q _ hc
    rcases Multiset.mem_cons.1 hp with rfl | hp
    · cases hc
    · simp [hcounting p hp] at hc
  · exact fun ks _ j hj => absurd (hcounter j) hj
  · intro _
    simp [Counters.sum, hzero, owed_eq_zero hcounting, Phase.owes]

end Moves

/-- One move of one worker. -/
theorem step_inv [DecidableEq α] {m m' : Counters α} {ws ws' : Multiset (Phase α)} (hstep : Step m ws m' ws')
    (h : Inv m ws) : Inv m' ws' := by
  obtain ⟨others, hapart, hmove⟩ := hstep
  cases hmove with
  | enlist => exact inv_enlist h hapart
  | add => exact inv_add h
  | addTotal => exact inv_addTotal h
  | zero => exact inv_zero h hapart
  | read _ hall => exact inv_read h hall
  | drop => exact inv_drop h
  | empty => exact inv_empty h

end Tally
