import SlurmWeb.Lib.Strings

/-!
# Strings in UTF-8

* `utf8` — the octets of a string.
* `count_utf8` — an ASCII octet occurs as often as its character.
-/

namespace Strings

abbrev Octets := List UInt8

/-- A text in UTF-8. -/
def utf8 (s : Str) : Octets := s.flatMap String.utf8EncodeChar

@[simp] theorem utf8_nil : utf8 [] = [] := rfl

@[simp] theorem utf8_cons (c : Char) (s : Str) : utf8 (c :: s) = String.utf8EncodeChar c ++ utf8 s := rfl

theorem utf8_append (s t : Str) : utf8 (s ++ t) = utf8 s ++ utf8 t := List.flatMap_append

theorem length_utf8_cons (c : Char) (s : Str) : (utf8 (c :: s)).length = c.utf8Size + (utf8 s).length := by
  rw [utf8_cons, List.length_append, String.length_utf8EncodeChar]

theorem eq_nil_of_utf8_length {s : Str} (h : (utf8 s).length = 0) : s = [] := by
  cases s with
  | nil => rfl
  | cons c s =>
    have hpos := c.utf8Size_pos
    rw [length_utf8_cons] at h
    omega

/-! ## ASCII -/

/-- The octet of an ASCII character. -/
def octet (c : Char) : UInt8 := UInt8.ofNat c.toNat

theorem toNat_octet {c : Char} (h : c.toNat < 128) : (octet c).toNat = c.toNat := by
  rw [octet, UInt8.toNat_ofNat']
  omega

theorem utf8EncodeChar_ascii {c : Char} (h : c.toNat < 128) : String.utf8EncodeChar c = [octet c] := by
  have hle : c.val.toNat ≤ 0x7f := Nat.le_of_lt_succ h
  unfold String.utf8EncodeChar
  exact if_pos hle

/-- The octets of other characters are not ASCII. -/
theorem le_of_mem_utf8EncodeChar {c : Char} (h : 128 ≤ c.toNat) : ∀ b ∈ String.utf8EncodeChar c, 128 ≤ b.toNat := by
  have hgt : ¬ c.val.toNat ≤ 0x7f := Nat.not_le.2 h
  intro b hb
  rw [String.utf8EncodeChar] at hb
  simp only [hgt, if_false] at hb
  split at hb
  · simp only [List.mem_cons, List.not_mem_nil, or_false] at hb
    rcases hb with rfl | rfl <;> rw [UInt8.toNat_ofNat'] <;> omega
  · split at hb
    · simp only [List.mem_cons, List.not_mem_nil, or_false] at hb
      rcases hb with rfl | rfl | rfl <;> rw [UInt8.toNat_ofNat'] <;> omega
    · simp only [List.mem_cons, List.not_mem_nil, or_false] at hb
      rcases hb with rfl | rfl | rfl | rfl <;> rw [UInt8.toNat_ofNat'] <;> omega

theorem octet_inj {c d : Char} (hc : c.toNat < 128) (hd : d.toNat < 128) (h : octet c = octet d) : c = d := by
  have hnat := congrArg UInt8.toNat h
  rw [toNat_octet hc, toNat_octet hd] at hnat
  exact Char.toNat_inj.1 hnat

theorem count_utf8EncodeChar {q : Char} (hq : q.toNat < 128) (c : Char) :
    (String.utf8EncodeChar c).count (octet q) = if c = q then 1 else 0 := by
  by_cases hc : c.toNat < 128
  · rw [utf8EncodeChar_ascii hc, List.count_singleton]
    by_cases hcq : c = q
    · simp [hcq]
    · have hne : octet c ≠ octet q := fun h => hcq (octet_inj hc hq h)
      simp [hcq, hne]
  · rw [List.count_eq_zero_of_not_mem, if_neg]
    · rintro rfl
      exact hc hq
    · intro hmem
      have hle := le_of_mem_utf8EncodeChar (Nat.not_lt.1 hc) _ hmem
      rw [toNat_octet hq] at hle
      omega

theorem count_utf8 {q : Char} (hq : q.toNat < 128) (s : Str) : (utf8 s).count (octet q) = s.count q := by
  induction s with
  | nil => rfl
  | cons c s ih =>
    rw [utf8_cons, List.count_append, count_utf8EncodeChar hq, ih, List.count_cons]
    simp only [beq_iff_eq]
    omega

theorem mem_utf8 {q : Char} (hq : q.toNat < 128) {s : Str} : octet q ∈ utf8 s ↔ q ∈ s := by
  rw [← List.count_pos_iff, count_utf8 hq, List.count_pos_iff]

end Strings
