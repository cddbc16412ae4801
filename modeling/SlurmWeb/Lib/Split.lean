import SlurmWeb.Lib.Strings

/-!
# Texts cut at a separator

* `splitOn_append_left`, `splitOn_intercalate_eq` — the pieces of a text, of texts joined.
* `splitOn_subset` — a piece has no characters of its own.
* `beforeFirst` — the first piece.
-/

namespace Strings

theorem splitOn_append_left {sep : Char} {s : Str} (h : sep ∉ s) (t : Str) :
    (s ++ t).splitOn sep = (t.splitOn sep).modifyHead (s ++ ·) := by
  obtain ⟨piece, pieces, hpieces⟩ := List.exists_cons_of_ne_nil (List.splitOn_ne_nil sep t)
  induction s with
  | nil => rw [List.nil_append, hpieces]; rfl
  | cons c s ih =>
    have hc : c ≠ sep := fun hc => h (hc ▸ List.mem_cons_self)
    have hs : sep ∉ s := fun hs => h (List.mem_cons_of_mem _ hs)
    rw [List.cons_append, List.splitOn_cons_eq_if_modifyHead, if_neg (by simpa using hc), ih hs, hpieces]
    rfl

theorem splitOn_subset {sep : Char} : ∀ {s piece : Str}, piece ∈ s.splitOn sep → ∀ c ∈ piece, c ∈ s
  | [], piece, h, c, hc => by
    rw [List.splitOn_nil, List.mem_singleton] at h
    rw [h] at hc
    cases hc
  | d :: s, piece, h, c, hc => by
    obtain ⟨first, rest, hpieces⟩ := List.exists_cons_of_ne_nil (List.splitOn_ne_nil sep s)
    have hmem : ∀ p ∈ first :: rest, ∀ x ∈ p, x ∈ d :: s := fun p hp x hx =>
      List.mem_cons_of_mem _ (splitOn_subset (hpieces ▸ hp) x hx)
    rw [List.splitOn_cons_eq_if_modifyHead, hpieces] at h
    split at h
    · rcases List.mem_cons.1 h with rfl | h
      · cases hc
      · exact hmem piece h c hc
    · rw [List.modifyHead_cons] at h
      rcases List.mem_cons.1 h with rfl | h
      · rcases List.mem_cons.1 hc with rfl | hc
        · exact List.mem_cons_self
        · exact hmem first List.mem_cons_self c hc
      · exact hmem piece (List.mem_cons_of_mem _ h) c hc

theorem splitOn_intercalate_eq (sep : Char) : ∀ {l : List Str}, l ≠ [] →
    ([sep].intercalate l).splitOn sep = l.flatMap (·.splitOn sep)
  | [], h => absurd rfl h
  | [s], _ => by simp
  | s :: t :: l, _ => by
    have hcut : ([sep].intercalate (s :: t :: l)) = s ++ sep :: [sep].intercalate (t :: l) := by
      rw [List.intercalate_cons_cons]
      simp
    rw [hcut, List.splitOn_append_cons_self, splitOn_intercalate_eq sep (List.cons_ne_nil t l)]
    rfl

/-- `s.split(sep)[0]` -/
def beforeFirst (sep : Char) (s : Str) : Str := s.takeWhile (· ≠ sep)

theorem beforeFirst_append {sep : Char} {s t : Str} (h : sep ∉ s) (ht : ∀ c ∈ t.head?, c = sep) :
    beforeFirst sep (s ++ t) = s := by
  have hs : ∀ c ∈ s, decide (c ≠ sep) = true := fun c hc => decide_eq_true fun heq => h (heq ▸ hc)
  rw [beforeFirst, List.takeWhile_append_of_pos hs]
  cases t with
  | nil => simp
  | cons c t => simp [ht c rfl]

theorem beforeFirst_subset {sep : Char} {s : Str} : ∀ c ∈ beforeFirst sep s, c ∈ s := fun _ hc =>
  (List.takeWhile_sublist _).subset hc

end Strings
