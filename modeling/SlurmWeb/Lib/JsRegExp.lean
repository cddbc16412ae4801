import SlurmWeb.Lib.Strings

/-!
# Global matches of a regular expression

`text.matchAll(re)`, for an expression given by what it matches at the start of a text. The next match is looked
for behind the last one, one character further on where that was empty.

* `matchAll_cons` — a match, then the matches in the rest.
* `matchAll_skip` — where nothing matches, the matches further on.
* `mem_matchAll` — a match is one of a part of the text.
-/

namespace Js

open Strings

variable {M : Type}

/-- What an expression matches at the start of a text, and the rest of the text. -/
abbrev Pattern (M : Type) := Str → Option (M × Str)

/-- The matches from a position on, `fuel` bounding the positions. -/
def matchLoop (re : Pattern M) : Nat → Str → List M
  | 0, _ => []
  | fuel + 1, text => match re text with
    | some (m, rest) => m :: if rest.length < text.length then matchLoop re fuel rest else
        if text = [] then [] else matchLoop re fuel text.tail
    | none => if text = [] then [] else matchLoop re fuel text.tail

/-- `text.matchAll(re)` -/
def matchAll (re : Pattern M) (text : Str) : List M := matchLoop re (text.length + 1) text

variable {re : Pattern M}

/-- More fuel than positions changes nothing. -/
theorem matchLoop_fuel : ∀ {fuel more : Nat} {text : Str}, text.length < fuel → text.length < more →
    matchLoop re fuel text = matchLoop re more text
  | 0, _, _, h, _ => absurd h (Nat.not_lt_zero _)
  | _, 0, _, _, h => absurd h (Nat.not_lt_zero _)
  | fuel + 1, more + 1, text, hfuel, hmore => by
    have hnext : (if text = [] then [] else matchLoop re fuel text.tail) =
        if text = [] then [] else matchLoop re more text.tail := by
      cases text with
      | nil => rfl
      | cons c text =>
        change matchLoop re fuel text = matchLoop re more text
        exact matchLoop_fuel (by simpa using hfuel) (by simpa using hmore)
    rw [matchLoop, matchLoop]
    split
    · next m rest _ =>
      by_cases hshort : rest.length < text.length
      · rw [if_pos hshort, if_pos hshort]
        exact congrArg (m :: ·) (matchLoop_fuel (by omega) (by omega))
      · rw [if_neg hshort, if_neg hshort, hnext]
    · exact hnext

theorem matchAll_cons {text rest : Str} {m : M} (h : re text = some (m, rest)) (hshort : rest.length < text.length) :
    matchAll re text = m :: matchAll re rest := by
  rw [matchAll, matchLoop, h]
  dsimp only
  rw [if_pos hshort, matchAll, matchLoop_fuel hshort (Nat.lt_succ_self _)]

theorem matchAll_skip {c : Char} {text : Str} (h : re (c :: text) = none) :
    matchAll re (c :: text) = matchAll re text := by
  rw [matchAll, matchLoop, h]
  rfl

/-- At the end of the text an empty match is the last. -/
theorem matchAll_end {m : M} (h : re [] = some (m, [])) : matchAll re [] = [m] := by
  rw [matchAll, matchLoop, h]
  rfl

theorem matchAll_nothing (h : re [] = none) : matchAll re [] = [] := by
  rw [matchAll, matchLoop, h]
  rfl

theorem mem_matchLoop {m : M} : ∀ {fuel : Nat} {text : Str}, m ∈ matchLoop re fuel text → ∃ part rest,
    re part = some (m, rest)
  | 0, _, h => by cases h
  | fuel + 1, text, h => by
    have hnext : m ∈ (if text = [] then [] else matchLoop re fuel text.tail) → ∃ part rest,
        re part = some (m, rest) := fun h => by
      split at h
      · cases h
      · exact mem_matchLoop h
    rw [matchLoop] at h
    split at h
    · next first rest hmatch =>
      rcases List.mem_cons.1 h with rfl | h
      · exact ⟨text, rest, hmatch⟩
      · split at h
        · exact mem_matchLoop h
        · exact hnext h
    · exact hnext h

theorem mem_matchAll {text : Str} {m : M} (h : m ∈ matchAll re text) :
    ∃ part rest, re part = some (m, rest) := mem_matchLoop h

end Js
