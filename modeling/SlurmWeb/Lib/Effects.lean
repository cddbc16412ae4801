import Mathlib

/-!
# Programs that raise and act

A program either returns or raises, and the actions it performed on the outside world stay done
either way. `Acts p m`: whatever `m` returns or does, it does only if `p`. `Avoids bad m`: no
exception of `m` is `bad`.

* `Acts.bind`, `Acts.bind_check` — a check passed early vouches for the rest.
* `Yields.bind` — what the last part returns, the sequence returns.
* `Avoids.bind` — an exception of a sequence is an exception of one of its parts.
-/

/-- A program over a log of actions `W`. -/
def Prog (ε W α : Type) : Type := List W → Except ε α × List W

namespace Prog

variable {ε W α β : Type}

def ret (a : α) : Prog ε W α := fun log => (.ok a, log)

/-- A computation without actions. -/
def check (x : Except ε α) : Prog ε W α := fun log => (x, log)

def raise (e : ε) : Prog ε W α := check (.error e)

/-- Perform an action; what it answers may still be an exception. -/
def act (w : W) (answer : Except ε α) : Prog ε W α := fun log => (answer, log ++ [w])

def andThen (m : Prog ε W α) (f : α → Prog ε W β) : Prog ε W β := fun log =>
  match m log with
  | (.ok a, log') => f a log'
  | (.error e, log') => (.error e, log')

/-- `except Exception as err: raise f(err)` -/
def handle (f : ε → ε) (m : Prog ε W α) : Prog ε W α := fun log =>
  match m log with
  | (.ok a, log') => (.ok a, log')
  | (.error e, log') => (.error (f e), log')

instance : Monad (Prog ε W) where
  pure := ret
  bind := andThen

/-- `m` returned a value or performed an action. -/
def Effective (m : Prog ε W α) (log : List W) : Prop := (∃ a, (m log).1 = .ok a) ∨ (m log).2 ≠ log

def Acts (p : Prop) (m : Prog ε W α) : Prop := ∀ log, m.Effective log → p

def Avoids (bad : ε → Prop) (m : Prog ε W α) : Prop := ∀ log e, (m log).1 = .error e → ¬ bad e

theorem bind_run (m : Prog ε W α) (f : α → Prog ε W β) (log : List W) :
    (m >>= f) log = match m log with
      | (.ok a, log') => f a log'
      | (.error e, log') => (.error e, log') := rfl

theorem bind_ok {m : Prog ε W α} {f : α → Prog ε W β} {log log' : List W} {a : α} (h : m log = (.ok a, log')) :
    (m >>= f) log = f a log' := by rw [bind_run, h]

theorem bind_error {m : Prog ε W α} {f : α → Prog ε W β} {log log' : List W} {e : ε} (h : m log = (.error e, log')) :
    (m >>= f) log = (.error e, log') := by rw [bind_run, h]

/-! ## `Acts` -/

theorem Acts.mono {p q : Prop} {m : Prog ε W α} (h : Acts p m) (hpq : p → q) : Acts q m :=
  fun log he => hpq (h log he)

/-- What the first part vouches for, the sequence does. -/
theorem Acts.bind {p : Prop} {m : Prog ε W α} {f : α → Prog ε W β} (h : Acts p m) : Acts p (m >>= f) := by
  intro log he
  refine h log ?_
  cases hm : m log with
  | mk r log' =>
    cases r with
    | ok a => exact .inl ⟨a, by rw [hm]⟩
    | error e =>
      rcases he with ⟨b, hb⟩ | hlog
      · rw [bind_error hm] at hb; cases hb
      · rw [bind_error hm] at hlog
        exact .inr (by rwa [hm])

/-- A first part without actions: the rest may vouch, knowing what it returned. -/
theorem Acts.bind_check {p : Prop} {x : Except ε α} {f : α → Prog ε W β} (h : ∀ a, x = .ok a → Acts p (f a)) :
    Acts p (check x >>= f) := by
  intro log he
  cases hx : x with
  | ok a =>
    subst hx
    exact h a rfl log he
  | error e =>
    subst hx
    rcases he with ⟨b, hb⟩ | hlog
    · cases hb
    · exact absurd rfl hlog

theorem Acts.check {p : Prop} {x : Except ε α} (h : ∀ a, x = .ok a → p) : Acts p (check x : Prog ε W α) := by
  intro log he
  rcases he with ⟨a, ha⟩ | hlog
  · exact h a ha
  · exact absurd rfl hlog

theorem Acts.handle {p : Prop} {f : ε → ε} {m : Prog ε W α} (h : Acts p m) : Acts p (m.handle f) := by
  intro log he
  refine h log ?_
  unfold Effective Prog.handle at *
  cases hm : m log with
  | mk r log' => cases r <;> simp_all

/-- Handling an exception keeps the actions. -/
theorem handle_log (f : ε → ε) (m : Prog ε W α) (log : List W) : (m.handle f log).2 = (m log).2 := by
  unfold Prog.handle
  cases m log with
  | mk r log' => cases r <;> rfl

/-- Handling an exception keeps what is returned. -/
theorem handle_ok_iff (f : ε → ε) (m : Prog ε W α) (log : List W) :
    (∃ a, (m.handle f log).1 = .ok a) ↔ ∃ a, (m log).1 = .ok a := by
  unfold Prog.handle
  cases m log with
  | mk r log' =>
    cases r with
    | ok a => exact Iff.rfl
    | error e => exact iff_of_false (fun ⟨_, h⟩ => by cases h) (fun ⟨_, h⟩ => by cases h)

/-! ## `Yields` -/

/-- Whatever `m` returns has the property. -/
def Yields (p : α → Prop) (m : Prog ε W α) : Prop := ∀ log a, (m log).1 = .ok a → p a

theorem Yields.bind {p : β → Prop} {m : Prog ε W α} {f : α → Prog ε W β} (h : ∀ a, Yields p (f a)) :
    Yields p (m >>= f) := by
  intro log b hb
  cases hm : m log with
  | mk r log' =>
    cases r with
    | ok a => rw [bind_ok hm] at hb; exact h a log' b hb
    | error e => rw [bind_error hm] at hb; cases hb

theorem Yields.handle {p : α → Prop} {f : ε → ε} {m : Prog ε W α} (h : Yields p m) : Yields p (m.handle f) := by
  intro log a ha
  unfold Prog.handle at ha
  cases hm : m log with
  | mk r log' =>
    cases r with
    | ok b => rw [hm] at ha; exact h log a (by rw [hm]; exact ha)
    | error e => rw [hm] at ha; cases ha

/-! ## `Avoids` -/

variable {bad : ε → Prop}

theorem Avoids.handle {f : ε → ε} {m : Prog ε W α} (hf : ∀ e, bad (f e) → bad e) (h : Avoids bad m) :
    Avoids bad (m.handle f) := by
  intro log e he
  unfold Prog.handle at he
  cases hm : m log with
  | mk r log' =>
    cases r with
    | ok a => rw [hm] at he; cases he
    | error e' =>
      rw [hm] at he
      cases he
      exact fun hb => h log e' (by rw [hm]) (hf e' hb)

theorem Avoids.ret (a : α) : Avoids bad (pure a : Prog ε W α) := fun _ _ h => by cases h

theorem Avoids.check {x : Except ε α} (h : ∀ e, x = .error e → ¬ bad e) : Avoids bad (check x : Prog ε W α) :=
  fun _ e he => h e he

theorem Avoids.act {w : W} {x : Except ε α} (h : ∀ e, x = .error e → ¬ bad e) : Avoids bad (act w x) :=
  fun _ e he => h e he

theorem Avoids.bind {m : Prog ε W α} {f : α → Prog ε W β} (hm : Avoids bad m) (hf : ∀ a, Avoids bad (f a)) :
    Avoids bad (m >>= f) := by
  intro log e he
  cases hr : m log with
  | mk r log' =>
    cases r with
    | ok a => rw [bind_ok hr] at he; exact hf a log' e he
    | error e' =>
      rw [bind_error hr] at he
      cases he
      exact hm log e (by rw [hr])

/-- After a computation without actions the rest knows what it returned. -/
theorem Avoids.bind_check {x : Except ε α} {f : α → Prog ε W β} (hx : ∀ e, x = .error e → ¬ bad e)
    (hf : ∀ a, x = .ok a → Avoids bad (f a)) : Avoids bad (Prog.check x >>= f) := by
  intro log e he
  cases h : x with
  | ok a => subst h; exact hf a rfl log e he
  | error e' => subst h; cases he; exact hx e rfl

end Prog
