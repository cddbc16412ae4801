import Mathlib

/-!
# Strings as lists of code points

Python's `str` and JavaScript's `string`, as far as the programs modelled over this library
look inside them: `strip`, `split` on a separator, prefixes and suffixes. A string is the list
of its code points, so `==`, `in` and the code-point order are those of lists.

* `strip_eq_self` — a string whose ends are not blank is left alone by `strip`.
* `not_mem_of_mem_splitOn` — no part of a split contains the separator.
* `mem_sortedSet` — `sorted(set(..))` keeps the elements.
-/

namespace Strings

abbrev Str := List Char

instance : Coe String Str := ⟨String.toList⟩

instance : LawfulBEq Str := inferInstanceAs (LawfulBEq (List Char))

/-- The code points for which Python's `str.isspace` is true. -/
def isSpace (c : Char) : Bool :=
  let n := c.toNat
  (9 ≤ n && n ≤ 13) || (28 ≤ n && n ≤ 32) || n == 0x85 || n == 0xa0 || n == 0x1680 ||
    (0x2000 ≤ n && n ≤ 0x200a) || n == 0x2028 || n == 0x2029 || n == 0x202f || n == 0x205f ||
    n == 0x3000

def lstrip (s : Str) : Str := s.dropWhile isSpace

def rstrip (s : Str) : Str := (s.reverse.dropWhile isSpace).reverse

/-- `s.strip()` -/
def strip (s : Str) : Str := rstrip (lstrip s)

/-- `s.split()` -/
def words (s : Str) : List Str := (s.splitOnP isSpace).filter (· ≠ [])

/-- `s.strip(chars)` -/
def stripBy (chars : Char → Bool) (s : Str) : Str := (s.dropWhile chars).rdropWhile chars

/-- Neither end of the string is a blank. -/
def Trimmed (s : Str) : Prop :=
  (∀ c ∈ s.head?, isSpace c = false) ∧ ∀ c ∈ s.getLast?, isSpace c = false

theorem dropWhile_eq_self {s : Str} (h : ∀ c ∈ s.head?, isSpace c = false) :
    s.dropWhile isSpace = s := by
  cases s with
  | nil => rfl
  | cons a s => simp [h a rfl]

theorem head?_dropWhile {s : Str} : ∀ c ∈ (s.dropWhile isSpace).head?, isSpace c = false := by
  intro c hc
  have := List.head?_dropWhile_not isSpace s
  rw [Option.mem_def.1 hc] at this
  simpa using this

theorem strip_eq_self {s : Str} (h : Trimmed s) : strip s = s := by
  have h2 : ∀ c ∈ s.reverse.head?, isSpace c = false := by simpa using h.2
  unfold strip lstrip rstrip
  rw [dropWhile_eq_self h.1, dropWhile_eq_self h2, List.reverse_reverse]

/-- What `strip` returns does not start with a blank. -/
theorem strip_head (s : Str) : ∀ c ∈ (strip s).head?, isSpace c = false := by
  intro c hc
  unfold strip rstrip at hc
  -- `rstrip` only cuts the end off, so the first character is the one `lstrip` left there
  obtain ⟨t, ht⟩ := List.dropWhile_suffix (l := (lstrip s).reverse) isSpace
  have hp : lstrip s = ((lstrip s).reverse.dropWhile isSpace).reverse ++ t.reverse := by
    rw [← List.reverse_append, ht, List.reverse_reverse]
  refine head?_dropWhile (s := s) c ?_
  change c ∈ (lstrip s).head?
  rw [hp, List.head?_append, Option.mem_def.1 hc]
  rfl

theorem strip_length_le (s : Str) : (strip s).length ≤ s.length := by
  have hright := (List.dropWhile_sublist isSpace (l := (lstrip s).reverse)).length_le
  have hleft := (List.dropWhile_sublist isSpace (l := s)).length_le
  rw [List.length_reverse] at hright
  rw [strip, rstrip, List.length_reverse]
  exact hright.trans hleft

/-- What `strip` returns has no blank end. -/
theorem strip_trimmed (s : Str) : Trimmed (strip s) := by
  refine ⟨strip_head s, fun c hc => ?_⟩
  rw [strip, rstrip, List.getLast?_reverse] at hc
  exact head?_dropWhile c hc

/-- `strip` cuts blanks off both ends. -/
theorem strip_decompose (s : Str) : ∃ lead trail, s = lead ++ strip s ++ trail ∧ (∀ c ∈ lead, isSpace c = true) ∧
    ∀ c ∈ trail, isSpace c = true := by
  refine ⟨s.takeWhile isSpace, ((lstrip s).reverse.takeWhile isSpace).reverse, ?_, fun c =>
    List.mem_takeWhile_imp, fun c hc => ?_⟩
  · have hright : strip s ++ ((lstrip s).reverse.takeWhile isSpace).reverse = lstrip s := by
      rw [strip, rstrip, ← List.reverse_append, List.takeWhile_append_dropWhile, List.reverse_reverse]
    rw [List.append_assoc, hright, lstrip, List.takeWhile_append_dropWhile]
  · exact List.mem_takeWhile_imp (List.mem_reverse.1 hc)

theorem strip_strip (s : Str) : strip (strip s) = strip s := strip_eq_self (strip_trimmed s)

theorem mem_stripBy {chars : Char → Bool} {s : Str} {c : Char} (h : c ∈ stripBy chars s) : c ∈ s :=
  (s.dropWhile_sublist chars).subset ((List.rdropWhile_prefix chars _).sublist.subset h)

theorem stripBy_length_le {chars : Char → Bool} {s : Str} : (stripBy chars s).length ≤ s.length :=
  (List.rdropWhile_prefix chars _).length_le.trans (List.dropWhile_sublist chars).length_le

theorem stripBy_head {chars : Char → Bool} {s : Str} : ∀ c ∈ (stripBy chars s).head?, chars c = false := by
  intro c hc
  obtain ⟨t, ht⟩ := List.rdropWhile_prefix (l := s.dropWhile chars) chars
  have hhead := List.head?_dropWhile_not chars s
  rw [← ht, List.head?_append, ← stripBy, Option.mem_def.1 hc] at hhead
  simpa using hhead

theorem stripBy_getLast {chars : Char → Bool} {s : Str} : ∀ c ∈ (stripBy chars s).getLast?, chars c = false := by
  intro c hc
  have hne : stripBy chars s ≠ [] := by
    intro hnil
    rw [hnil] at hc
    cases hc
  have hlast := List.rdropWhile_last_not chars (s.dropWhile chars) hne
  rw [List.getLast?_eq_some_getLast hne, Option.mem_some_iff] at hc
  rw [← hc]
  exact Bool.eq_false_iff.2 hlast

/-- `s.split()` has no words when all of `s` is blank. -/
theorem words_eq_nil_iff {s : Str} : words s = [] ↔ ∀ c ∈ s, isSpace c = true := by
  unfold words
  induction s with
  | nil => simp
  | cons a s ih =>
    rw [List.splitOnP_cons_eq_if_modifyHead]
    by_cases ha : isSpace a = true
    · simpa [ha] using ih
    · cases hs : s.splitOnP isSpace with
      | nil => exact absurd hs (List.splitOnP_ne_nil _ _)
      | cons w ws => simp [ha]

theorem not_mem_of_mem_splitOn {x : Char} : ∀ {s l : Str}, l ∈ s.splitOn x → x ∉ l
  | [], l, h => by simp at h; simp [h]
  | a :: s, l, h => by
    rw [List.splitOn_cons_eq_if_modifyHead] at h
    by_cases ha : a = x
    · simp only [ha, beq_self_eq_true, if_true, List.mem_cons] at h
      rcases h with rfl | h
      · simp
      · exact not_mem_of_mem_splitOn h
    · simp only [beq_iff_eq, ha, if_false] at h
      have hne := List.splitOn_ne_nil x s
      cases hs : s.splitOn x with
      | nil => exact absurd hs hne
      | cons b t =>
        rw [hs, List.modifyHead_cons, List.mem_cons] at h
        rcases h with rfl | h
        · have hb : x ∉ b := not_mem_of_mem_splitOn (s := s) (by simp [hs])
          simp [Ne.symm ha, hb]
        · exact not_mem_of_mem_splitOn (s := s) (by simp [hs, h])

/-! ## `sorted` and `set` -/

/-- Python orders strings by code point. -/
def le (a b : Str) : Bool := !decide (b < a)

def sorted (l : List Str) : List Str := l.insertionSort (le · ·)

/-- `sorted(set(l))` -/
def sortedSet (l : List Str) : List Str := sorted l.dedup

@[simp] theorem sorted_nil : sorted [] = [] := rfl

@[simp] theorem sortedSet_nil : sortedSet [] = [] := rfl

@[simp] theorem mem_sorted {l : List Str} {s : Str} : s ∈ sorted l ↔ s ∈ l := by
  simp [sorted]

@[simp] theorem mem_sortedSet {l : List Str} {s : Str} : s ∈ sortedSet l ↔ s ∈ l := by
  simp [sortedSet]

theorem le_iff {a b : Str} : le a b = true ↔ a ≤ b := by simp [le]

instance : IsTrans Str (le · ·) := ⟨fun _ _ _ hab hbc => le_iff.2 (le_trans (le_iff.1 hab) (le_iff.1 hbc))⟩

instance : Std.Total (α := Str) (le · ·) := ⟨fun a b => (le_total a b).imp le_iff.2 le_iff.2⟩

instance : Std.Antisymm (α := Str) (le · ·) := ⟨fun _ _ hab hba => le_antisymm (le_iff.1 hab) (le_iff.1 hba)⟩

theorem sortedSet_nodup (l : List Str) : (sortedSet l).Nodup :=
  (List.perm_insertionSort _ _).nodup_iff.2 l.nodup_dedup

/-- `sorted(set(..))` depends on the elements alone. -/
theorem sortedSet_congr {a b : List Str} (h : ∀ s, s ∈ a ↔ s ∈ b) : sortedSet a = sortedSet b := by
  have hperm : (sortedSet a).Perm (sortedSet b) := by
    rw [List.perm_ext_iff_of_nodup (sortedSet_nodup a) (sortedSet_nodup b)]
    intro s
    rw [mem_sortedSet, mem_sortedSet, h]
  exact hperm.eq_of_pairwise' (List.pairwise_insertionSort _ _) (List.pairwise_insertionSort _ _)

/-! ## Numbers -/

/-- Where the decimal digits of the scripts of Unicode start. -/
def decimalZeros : List Nat :=
  [0x30, 0x660, 0x6f0, 0x7c0, 0x966, 0x9e6, 0xa66, 0xae6, 0xb66, 0xbe6, 0xc66, 0xce6, 0xd66, 0xde6, 0xe50, 0xed0,
    0xf20, 0x1040, 0x1090,
    0x17e0, 0x1810, 0x1946, 0x19d0, 0x1a80, 0x1a90, 0x1b50, 0x1bb0, 0x1c40, 0x1c50, 0xa620, 0xa8d0, 0xa900, 0xa9d0,
      0xa9f0, 0xaa50, 0xabf0,
    0xff10, 0x104a0, 0x10d30, 0x11066, 0x110f0, 0x11136, 0x111d0, 0x112f0, 0x11450, 0x114d0, 0x11650, 0x116c0,
      0x11730, 0x118e0, 0x11950,
    0x11c50, 0x11d50, 0x11da0, 0x11f50, 0x16a60, 0x16ac0, 0x16b50, 0x1d7ce, 0x1d7d8, 0x1d7e2, 0x1d7ec, 0x1d7f6,
      0x1e140, 0x1e2f0, 0x1e4f0,
    0x1e950, 0x1fbf0]

/-- `\d` of a Python pattern: the decimal digits of every script. -/
def isDecimal (c : Char) : Bool := decimalZeros.any fun first => first ≤ c.toNat && c.toNat < first + 10

/-- `str(n)` is digits, after a sign where there is one. -/
theorem mem_int_text {n : Int} {c : Char} (h : c ∈ (toString n).toList) : c.isDigit = true ∨ c = '-' := by
  have hnat : ∀ m : Nat, c ∈ m.repr.toList → c.isDigit = true := by
    intro m hc
    rw [Nat.toList_repr] at hc
    exact Nat.isDigit_of_mem_toDigits (by decide) (by decide) hc
  cases n with
  | ofNat m => exact .inl (hnat m h)
  | negSucc m =>
    have htext : c ∈ ("-" ++ (m + 1).repr).toList := h
    rw [String.toList_append, List.mem_append] at htext
    exact htext.symm.imp (hnat _) List.mem_singleton.1

end Strings
