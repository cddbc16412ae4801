import Mathlib

/-!
# Computations that may raise

`Except ε` as the model of code that raises: what a bind returns and raises, and the loops over
a list that stop at the first exception.

* `bind_eq_ok`, `bind_eq_error` — the inversion of a bind.
* `Returns` — what does not raise; `returns_bind`, `returns_bind_const` through a bind.
* `Yields` — what every returned value has; `Yields.bind` through a bind.
* `mapM_eq_ok` — a loop that returns has returned for every element, in order.
* `filterE_eq_filter` — a filter whose condition never raises is a filter.
-/

namespace Except

variable {ε α β : Type}

@[simp] theorem ok_bind (a : α) (f : α → Except ε β) : (Except.ok a >>= f) = f a := rfl

@[simp] theorem error_bind (e : ε) (f : α → Except ε β) : (Except.error e >>= f) = .error e := rfl

@[simp] theorem pure_eq_ok (a : α) : (pure a : Except ε α) = .ok a := rfl

theorem bind_eq_ok {x : Except ε α} {f : α → Except ε β} {b : β} :
    (x >>= f) = .ok b ↔ ∃ a, x = .ok a ∧ f a = .ok b := by
  cases x <;> simp

theorem bind_eq_error {x : Except ε α} {f : α → Except ε β} {e : ε} :
    (x >>= f) = .error e ↔ x = .error e ∨ ∃ a, x = .ok a ∧ f a = .error e := by
  cases x <;> simp

/-- `x` does not raise. -/
def Returns (x : Except ε α) : Prop := ∃ a, x = .ok a

@[simp] theorem returns_ok (a : α) : Returns (.ok a : Except ε α) := ⟨a, rfl⟩

@[simp] theorem not_returns_error (e : ε) : ¬ Returns (.error e : Except ε α) := by
  rintro ⟨a, h⟩
  cases h

theorem not_returns_iff {x : Except ε α} : ¬ Returns x ↔ ∃ e, x = .error e := by
  cases x <;> simp

theorem returns_bind {x : Except ε α} {f : α → Except ε β} :
    Returns (x >>= f) ↔ ∃ a, x = .ok a ∧ Returns (f a) := by
  cases x <;> simp

/-- A bind whose second part raises or not whatever the first returned. -/
theorem returns_bind_const {x : Except ε α} {f : α → Except ε β} {p : Prop} (h : ∀ a, x = .ok a → (Returns (f a) ↔ p)) :
    Returns (x >>= f) ↔ Returns x ∧ p := by
  rw [returns_bind]
  constructor
  · rintro ⟨a, hx, hf⟩
    exact ⟨⟨a, hx⟩, (h a hx).1 hf⟩
  · rintro ⟨⟨a, hx⟩, hp⟩
    exact ⟨a, hx, (h a hx).2 hp⟩

/-- Whatever `x` returns has the property. -/
def Yields (p : α → Prop) (x : Except ε α) : Prop := ∀ a, x = .ok a → p a

theorem Yields.ok {p : α → Prop} {a : α} (h : p a) : Yields p (.ok a : Except ε α) := by
  rintro _ ⟨⟩
  exact h

theorem Yields.error {p : α → Prop} {e : ε} : Yields p (.error e) := nofun

theorem Yields.bind {p : β → Prop} {x : Except ε α} {f : α → Except ε β} (h : ∀ a, Yields p (f a)) :
    Yields p (x >>= f) := by
  intro b hb
  obtain ⟨a, -, hf⟩ := bind_eq_ok.1 hb
  exact h a b hf

theorem Yields.ite {p : α → Prop} {c : Prop} [Decidable c] {x y : Except ε α} (hx : Yields p x) (hy : Yields p y) :
    Yields p (if c then x else y) := by
  split
  · exact hx
  · exact hy

theorem isOk_iff {x : Except ε α} : x.isOk = true ↔ ∃ a, x = .ok a := by
  cases x <;> simp [Except.isOk, Except.toBool]

theorem mapM_eq_ok {f : α → Except ε β} : ∀ {l : List α} {out : List β},
    l.mapM f = .ok out ↔ List.Forall₂ (fun a b => f a = .ok b) l out
  | [], out => by
    rw [List.mapM_nil, pure_eq_ok, ok.injEq, List.forall₂_nil_left_iff, eq_comm]
  | a :: l, out => by
    rw [List.mapM_cons, List.forall₂_cons_left_iff, bind_eq_ok]
    constructor
    · rintro ⟨b, hb, h⟩
      obtain ⟨bs, hbs, h⟩ := bind_eq_ok.1 h
      exact ⟨b, bs, hb, mapM_eq_ok.1 hbs, (ok.inj h).symm⟩
    · rintro ⟨b, bs, hb, hbs, rfl⟩
      exact ⟨b, hb, bind_eq_ok.2 ⟨bs, mapM_eq_ok.2 hbs, rfl⟩⟩

/-- A loop raises exactly when one of its steps does. -/
theorem returns_mapM {f : α → Except ε β} {l : List α} : Returns (l.mapM f) ↔ ∀ a ∈ l, Returns (f a) := by
  unfold Returns
  induction l with
  | nil => simp
  | cons a l ih =>
    simp only [List.mapM_cons, bind_eq_ok, List.mem_cons, forall_eq_or_imp, ← ih, pure_eq_ok, ok.injEq]
    constructor
    · rintro ⟨_, b, hb, bs, hbs, -⟩; exact ⟨⟨b, hb⟩, bs, hbs⟩
    · rintro ⟨⟨b, hb⟩, bs, hbs⟩; exact ⟨b :: bs, b, hb, bs, hbs, rfl⟩

/-- `[a for a in l if p(a)]`, where the condition may raise. -/
def filterE (p : α → Except ε Bool) : List α → Except ε (List α)
  | [] => return []
  | a :: l => do
    let keep ← p a
    let rest ← filterE p l
    return if keep then a :: rest else rest

theorem filterE_eq_filter {p : α → Except ε Bool} {q : α → Bool} : ∀ {l : List α}, (∀ a ∈ l, p a = .ok (q a)) →
    filterE p l = .ok (l.filter q)
  | [], _ => rfl
  | a :: l, h => by
    have ih : filterE p l = .ok (l.filter q) := filterE_eq_filter fun b hb => h b (List.mem_cons_of_mem a hb)
    rw [filterE, h a List.mem_cons_self, ok_bind, ih, ok_bind, List.filter_cons]
    rfl

end Except
