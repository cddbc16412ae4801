import Mathlib

/-!
# Tickets of a counter

A counter is advanced for every ticket issued, and whenever the tickets out are to be forgotten. A ticket is valid
while the counter stands where it was issued.

* `Guarded.advance` — with the counter all tickets become invalid.
* `Guarded.issue`, `Guarded.forget` — a new ticket, and one handed in.
-/

namespace SlurmWeb.Tokens

variable {α : Type}

structure Ticket (α : Type) where
  token : Nat
  content : α
deriving DecidableEq

/-- No ticket is ahead of the counter, and what the valid ones contain is right. -/
def Guarded (counter : Nat) (right : α → Prop) (tickets : List (Ticket α)) : Prop :=
  ∀ ticket ∈ tickets, ticket.token ≤ counter ∧ (ticket.token = counter → right ticket.content)

variable {counter : Nat} {right right' : α → Prop} {tickets : List (Ticket α)}

theorem guarded_nil : Guarded counter right [] := fun _ h => absurd h List.not_mem_nil

theorem Guarded.valid (h : Guarded counter right tickets) {ticket : Ticket α} (hmem : ticket ∈ tickets)
    (hvalid : ticket.token = counter) : right ticket.content := (h ticket hmem).2 hvalid

theorem Guarded.advance (h : Guarded counter right tickets) {n : Nat} (hn : 0 < n) :
    Guarded (counter + n) right' tickets := by
  intro ticket hmem
  have hle := (h ticket hmem).1
  exact ⟨by omega, fun heq => absurd heq (by omega)⟩

theorem Guarded.issue (h : Guarded counter right tickets) {content : α} (hright : right content) :
    Guarded counter right (tickets ++ [⟨counter, content⟩]) := by
  intro ticket hmem
  rcases List.mem_append.1 hmem with hmem | hmem
  · exact h ticket hmem
  · obtain rfl := List.mem_singleton.1 hmem
    exact ⟨le_rfl, fun _ => hright⟩

theorem Guarded.forget (h : Guarded counter right tickets) (i : Nat) : Guarded counter right (tickets.eraseIdx i) :=
  fun ticket hmem => h ticket (List.mem_of_mem_eraseIdx hmem)

end SlurmWeb.Tokens
