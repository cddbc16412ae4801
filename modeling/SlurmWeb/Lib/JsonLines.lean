import SlurmWeb.Lib.JsonText

/-!
# Lines of JSON texts

`json.dumps` writes one line, and a line break in a text that is read stands between two tokens. So a
text in which a break follows a letter `r`, or stands between two objects, is never read
(`loads_letter_break`, `loads_objects`), wherever the text is cut and pasted.
-/

namespace Py.Json

open Strings

variable {F : Type}

/-! ## The characters of a text -/

/-- `ensure_ascii`: no control characters, nothing beyond ASCII. -/
def Printable (s : Str) : Prop := ∀ c ∈ s, 32 ≤ c.toNat ∧ c.toNat ≤ 126

theorem Printable.append {s t : Str} (hs : Printable s) (ht : Printable t) : Printable (s ++ t) := fun c hc =>
  (List.mem_append.1 hc).elim (hs c) (ht c)

theorem Printable.cons {c : Char} {s : Str} (hc : 32 ≤ c.toNat ∧ c.toNat ≤ 126) (hs : Printable s) :
    Printable (c :: s) := by
  intro d hd
  rcases List.mem_cons.1 hd with rfl | hd
  · exact hc
  · exact hs d hd

theorem Printable.flatMap {α : Type} {l : List α} {f : α → Str} (h : ∀ x ∈ l, Printable (f x)) :
    Printable (l.flatMap f) := by
  intro c hc
  obtain ⟨x, hx, hc⟩ := List.mem_flatMap.1 hc
  exact h x hx c hc

theorem printable_nil : Printable [] := fun _ hc => by cases hc

theorem printable_of_all {s : Str} (h : (s.all fun c => 32 ≤ c.toNat && c.toNat ≤ 126) = true) : Printable s := by
  intro c hc
  simpa using List.all_eq_true.1 h c hc

theorem Printable.intercalate {sep : Str} (hsep : Printable sep) : ∀ {texts : List Str}, (∀ s ∈ texts, Printable s) →
    Printable (sep.intercalate texts)
  | [], _ => printable_nil
  | [s], h => by
    rw [List.intercalate_singleton]
    exact h s List.mem_cons_self
  | s :: t :: texts, h => by
    rw [List.intercalate_cons_cons]
    exact ((h s List.mem_cons_self).append hsep).append
      (hsep.intercalate fun u hu => h u (List.mem_cons_of_mem _ hu))

theorem hexChar_printable : ∀ n < 16, 32 ≤ (hexChar n).toNat ∧ (hexChar n).toNat ≤ 126 := by decide

theorem unicodeEscape_printable (n : Nat) : Printable (unicodeEscape n) := by
  have hdigit : ∀ m, 32 ≤ (hexChar (m % 16)).toNat ∧ (hexChar (m % 16)).toNat ≤ 126 := fun m =>
    hexChar_printable _ (Nat.mod_lt _ (by decide))
  exact .cons (by decide) (.cons (by decide) (.cons (hdigit _) (.cons (hdigit _) (.cons (hdigit _)
    (.cons (hdigit _) printable_nil)))))

theorem shortEscape_printable {n : Nat} {e : Char} (h : shortEscape n = some e) : 32 ≤ e.toNat ∧ e.toNat ≤ 126 := by
  unfold shortEscape at h
  split at h <;> cases h <;> decide

theorem escape_printable (c : Char) : Printable (escape c) := by
  unfold escape
  split
  next e he => exact .cons (by decide) (.cons (shortEscape_printable he) printable_nil)
  next =>
    split
    next hc => exact .cons hc printable_nil
    next => exact .flatMap fun n _ => unicodeEscape_printable n

theorem quote_printable (s : Str) : Printable (quote s) :=
  .cons (by decide) ((Printable.flatMap fun c _ => escape_printable c).append (printable_of_all rfl))

theorem int_printable (n : Int) : Printable (toString n).toList := by
  intro c hc
  rcases mem_int_text hc with hdigit | rfl
  · rw [Char.isDigit, Bool.and_eq_true, decide_eq_true_eq, decide_eq_true_eq] at hdigit
    exact ⟨le_trans (by decide) hdigit.1, le_trans hdigit.2 (by decide)⟩
  · decide

variable {repr : F → Str}

theorem floatText_printable (hrepr : ∀ x, Printable (repr x)) (x : F) : Printable (floatText repr x) := by
  simp only [floatText]
  split
  next => exact printable_of_all rfl
  next =>
    split
    next => exact printable_of_all rfl
    next =>
      split
      next => exact printable_of_all rfl
      next => exact hrepr x

mutual

/-- **A text of `json.dumps` is printable ASCII**, in particular one line. -/
theorem dumps_printable (hrepr : ∀ x, Printable (repr x)) : ∀ value : Value F, Printable (dumps repr value)
  | .none => printable_of_all rfl
  | .bool true => printable_of_all rfl
  | .bool false => printable_of_all rfl
  | .int n => int_printable n
  | .float x => floatText_printable hrepr x
  | .str s => quote_printable s
  | .list items =>
    .cons (by decide) (((printable_of_all rfl : Printable ", ".toList).intercalate
      (dumpsItems_printable hrepr items)).append (printable_of_all rfl))
  | .dict items =>
    .cons (by decide) (((printable_of_all rfl : Printable ", ".toList).intercalate
      (dumpsFields_printable hrepr items)).append (printable_of_all rfl))

theorem dumpsItems_printable (hrepr : ∀ x, Printable (repr x)) : ∀ (values : List (Value F)),
    ∀ s ∈ dumpsItems repr values, Printable s
  | [], _, hs => by cases hs
  | value :: values, s, hs => by
    rcases List.mem_cons.1 hs with rfl | hs
    · exact dumps_printable hrepr value
    · exact dumpsItems_printable hrepr values s hs

theorem dumpsFields_printable (hrepr : ∀ x, Printable (repr x)) : ∀ (items : List (Str × Value F)),
    ∀ s ∈ dumpsFields repr items, Printable s
  | [], _, hs => by cases hs
  | (key, value) :: items, s, hs => by
    rcases List.mem_cons.1 hs with rfl | hs
    · exact (quote_printable key).append (.cons (by decide) (.cons (by decide) (dumps_printable hrepr value)))
    · exact dumpsFields_printable hrepr items s hs

end

/-! ## Line breaks in what is read -/

/-- The words behind their first letters. -/
def wordRests : List Str := ["ull", "rue", "alse", "aN", "nfinity"]

/-- The word that is being read is the end of one of these. -/
def Worded (s : State F) : Prop := ∀ rest value, s.mode = .word rest value → ∃ word ∈ wordRests, rest <:+ word

theorem worded_of {stack : List (Frame F)} {mode : Mode F} (h : ∀ rest value, mode ≠ .word rest value) :
    Worded ⟨stack, mode⟩ := fun rest value hmode => absurd hmode (h rest value)

theorem worded_word {stack : List (Frame F)} {value : Value F} {rest word : Str} (hword : word ∈ wordRests)
    (hrest : rest <:+ word) : Worded ⟨stack, .word rest value⟩ := by
  rintro _ _ ⟨⟩
  exact ⟨word, hword, hrest⟩

theorem deliver_worded (value : Value F) (stack : List (Frame F)) : Worded (deliver value stack) := by
  unfold deliver
  split <;> exact worded_of fun _ _ => by simp

theorem closeString_worded (text : Str) (stack : List (Frame F)) : Worded (closeString text stack) := by
  unfold closeString
  split
  next => exact worded_of fun _ _ => by simp
  next => exact deliver_worded _ _

theorem feedAfter_worded {s s' : State F} {c : Char} (hs : Worded s) (h : feedAfter s c = .ok s') : Worded s' := by
  unfold feedAfter at h
  split at h
  next =>
    cases h
    exact hs
  next =>
    split at h
    all_goals try split_ifs at h
    all_goals cases h
    all_goals first | exact deliver_worded _ _ | exact worded_of fun _ _ => by simp

/-- Behind a value only a comma or the end of a list or an object may follow. -/
theorem feedAfter_refuses (s : State F) {c : Char} (hspace : isWhitespace c = false)
    (hcomma : c ≠ ',') (hlist : c ≠ ']') (hdict : c ≠ '}') : feedAfter s c = .error .decode := by
  rw [feedAfter, hspace, if_neg Bool.false_ne_true]
  split
  next => rw [if_neg hcomma, if_neg hlist]
  next => rw [if_neg hcomma, if_neg hdict]
  next => rfl

theorem feedAfter_brace {s s' : State F} (h : feedAfter s '}' = .ok s') : ∃ value stack, s' = deliver value stack := by
  rw [feedAfter, if_neg (by decide)] at h
  split at h
  next => cases h
  next =>
    cases h
    exact ⟨_, _, rfl⟩
  next => cases h

variable [Python F]

theorem constant_worded {stack : List (Frame F)} {rest text : Str} {s' : State F} (hrest : rest ∈ wordRests)
    (h : constant stack rest text = .ok s') : Worded s' := by
  unfold constant at h
  split at h
  next =>
    cases h
    exact worded_word hrest (List.suffix_refl _)
  next => cases h

theorem begin_worded {limit : Nat} {stack : List (Frame F)} {c : Char} {s' : State F}
    (h : begin limit stack c = .ok s') : Worded s' := by
  have henter : ∀ {s : State F}, Worded s → enter limit stack s = .ok s' → Worded s' := by
    intro s hs h
    unfold enter at h
    split at h
    next =>
      cases h
      exact hs
    next => cases h
  unfold begin at h
  split at h
  · cases h
    exact worded_of fun _ _ => by simp
  · exact henter (worded_of fun _ _ => by simp) h
  · exact henter (worded_of fun _ _ => by simp) h
  · cases h
    exact worded_word (by simp [wordRests]) (List.suffix_refl _)
  · cases h
    exact worded_word (by simp [wordRests]) (List.suffix_refl _)
  · cases h
    exact worded_word (by simp [wordRests]) (List.suffix_refl _)
  · exact constant_worded (by simp [wordRests]) h
  · exact constant_worded (by simp [wordRests]) h
  · split at h
    next =>
      cases h
      exact worded_of fun _ _ => by simp
    next => cases h

theorem feed_worded {limit : Nat} {s s' : State F} {c : Char} (hs : Worded s)
    (h : feed limit s c = .ok s') : Worded s' := by
  obtain ⟨stack, mode⟩ := s
  have hplain : ∀ {mode : Mode F}, (∀ rest value, mode ≠ .word rest value) → Worded ⟨stack, mode⟩ := worded_of
  unfold feed at h
  cases mode with
  | value =>
    dsimp only at h
    split at h
    next => cases h; exact hs
    next => exact begin_worded h
  | valueOrEnd =>
    dsimp only at h
    split_ifs at h
    · cases h; exact hs
    · exact feedAfter_worded hs h
    · exact begin_worded h
  | key =>
    dsimp only at h
    split_ifs at h <;> cases h
    · exact hs
    · exact hplain fun _ _ => by simp
  | keyOrEnd =>
    dsimp only at h
    split_ifs at h
    · cases h; exact hs
    · cases h; exact hplain fun _ _ => by simp
    · exact feedAfter_worded hs h
  | colon =>
    dsimp only at h
    split_ifs at h <;> cases h
    · exact hs
    · exact hplain fun _ _ => by simp
  | after => exact feedAfter_worded hs h
  | done value => exact feedAfter_worded hs h
  | string points =>
    dsimp only [feedString] at h
    split_ifs at h <;> cases h
    · exact closeString_worded _ _
    · exact hplain fun _ _ => by simp
    · exact hplain fun _ _ => by simp
  | escape points =>
    dsimp only [feedEscape] at h
    split at h
    next => cases h; exact hplain fun _ _ => by simp
    next =>
      split at h
      next => cases h; exact hplain fun _ _ => by simp
      next => cases h
  | unicode points digits =>
    dsimp only [feedUnicode] at h
    split_ifs at h <;> cases h <;> exact hplain fun _ _ => by simp
  | number text =>
    dsimp only [feedNumber] at h
    split_ifs at h
    · cases h; exact hplain fun _ _ => by simp
    · exact constant_worded (by simp [wordRests]) h
    · obtain ⟨value, -, h⟩ := Except.bind_eq_ok.1 h
      exact feedAfter_worded (deliver_worded _ _) h
  | word rest value =>
    cases rest with
    | nil => exact feedAfter_worded (deliver_worded _ _) h
    | cons expected rest =>
      dsimp only [feedWord] at h
      split_ifs at h <;> cases h
      · exact deliver_worded _ _
      · obtain ⟨word, hword, hrest⟩ := hs _ _ rfl
        exact worded_word hword ((List.suffix_cons expected rest).trans hrest)

theorem run_worded {limit : Nat} : ∀ {text : Str} {s s' : State F}, Worded s → run limit s text = .ok s' → Worded s'
  | [], _, _, hs, h => by
    cases h
    exact hs
  | c :: text, s, s', hs, h => by
    rw [run, List.foldlM_cons] at h
    obtain ⟨s₁, hfeed, hrest⟩ := Except.bind_eq_ok.1 h
    exact run_worded (feed_worded hs hfeed) hrest

/-! ### Where no break may stand -/

theorem wordRests_chars : ∀ word ∈ wordRests, '\n' ∉ word ∧ '}' ∉ word ∧ ¬ ['r'] <:+ word := by decide

/-- Outside of strings an `r` stands in `true` only. -/
theorem feed_letter_break {limit : Nat} {s s' : State F} (hs : Worded s) (h : feed limit s 'r' = .ok s') :
    ∃ err, feed limit s' '\n' = .error err := by
  have hafter : ∀ {s : State F}, feedAfter s 'r' ≠ .ok s' := by
    intro s hok
    rw [feedAfter_refuses s (by decide) (by decide) (by decide) (by decide)] at hok
    cases hok
  obtain ⟨stack, mode⟩ := s
  unfold feed at h
  cases mode with
  | value | valueOrEnd | key | keyOrEnd | colon => cases h
  | after => exact absurd h hafter
  | done value => exact absurd h hafter
  | string points =>
    cases h
    exact ⟨_, rfl⟩
  | escape points =>
    cases h
    exact ⟨_, rfl⟩
  | unicode points digits => cases h
  | number text =>
    dsimp only [feedNumber] at h
    rw [if_neg (by decide), if_neg fun hi => absurd hi.2 (by decide)] at h
    obtain ⟨value, -, h⟩ := Except.bind_eq_ok.1 h
    exact absurd h hafter
  | word rest value =>
    cases rest with
    | nil => exact absurd h hafter
    | cons expected rest =>
      obtain ⟨word, hword, hrest⟩ := hs _ _ rfl
      dsimp only [feedWord] at h
      split_ifs at h with hexpected hlast
      · obtain rfl : 'r' = expected := not_not.1 hexpected
        subst hlast
        exact absurd hrest (wordRests_chars word hword).2.2
      · cases h
        obtain ⟨next, rest, rfl⟩ := List.exists_cons_of_ne_nil hlast
        have hnext : next ≠ '\n' := by
          rintro rfl
          exact (wordRests_chars word hword).1 (hrest.subset (by simp))
        refine ⟨.decode, ?_⟩
        show feedWord stack value '\n' (next :: rest) = _
        rw [feedWord, if_pos hnext.symm]

/-- Behind an object and a break no other object may follow. -/
theorem feed_objects {limit : Nat} {s s₁ s₂ : State F} (hs : Worded s) (h₁ : feed limit s '}' = .ok s₁)
    (h₂ : feed limit s₁ '\n' = .ok s₂) : ∃ err, feed limit s₂ '{' = .error err := by
  have hdelivered : ∀ {s : State F}, feedAfter s '}' = .ok s₁ → ∃ err, feed limit s₂ '{' = .error err := by
    intro s h
    obtain ⟨value, stack, rfl⟩ := feedAfter_brace h
    rw [feed_deliver] at h₂
    obtain rfl : deliver value stack = s₂ := by
      rw [feedAfter, if_pos (by decide)] at h₂
      exact Except.ok.inj h₂
    refine ⟨.decode, ?_⟩
    rw [feed_deliver]
    exact feedAfter_refuses _ (by decide) (by decide) (by decide) (by decide)
  obtain ⟨stack, mode⟩ := s
  unfold feed at h₁
  cases mode with
  | value | valueOrEnd | key | colon => cases h₁
  | keyOrEnd => exact hdelivered h₁
  | after => exact hdelivered h₁
  | done value => exact hdelivered h₁
  | string points =>
    cases h₁
    cases h₂
  | escape points => cases h₁
  | unicode points digits => cases h₁
  | number text =>
    dsimp only [feedNumber] at h₁
    rw [if_neg (by decide), if_neg fun hi => absurd hi.2 (by decide)] at h₁
    obtain ⟨value, -, h⟩ := Except.bind_eq_ok.1 h₁
    exact hdelivered h
  | word rest value =>
    cases rest with
    | nil => exact hdelivered h₁
    | cons expected rest =>
      obtain ⟨word, hword, hrest⟩ := hs _ _ rfl
      have hexpected : '}' ≠ expected := by
        rintro rfl
        exact (wordRests_chars word hword).2.1 (hrest.subset (by simp))
      dsimp only [feedWord] at h₁
      rw [if_pos hexpected] at h₁
      cases h₁

/-- What no state takes stands in no text that is read. -/
theorem loads_refuses {limit : Nat} {part : Str}
    (h : ∀ s s' : State F, Worded s → run limit s part ≠ .ok s') (a b : Str)
    (value : Value F) : loads limit (a ++ (part ++ b)) ≠ .ok value := by
  intro hok
  obtain ⟨s, hs, -⟩ := Except.bind_eq_ok.1 hok
  rw [run_append] at hs
  obtain ⟨s₁, hfront, hs⟩ := Except.bind_eq_ok.1 hs
  rw [run_append] at hs
  obtain ⟨s₂, hpart, -⟩ := Except.bind_eq_ok.1 hs
  exact h s₁ s₂ (run_worded (worded_of fun _ _ => by simp) hfront) hpart

/-- **No break follows an `r`.** -/
theorem loads_letter_break (limit : Nat) (a b : Str) (value : Value F) :
    loads limit (a ++ (['r', '\n'] ++ b)) ≠ .ok value := by
  refine loads_refuses (fun s s' hs h => ?_) a b value
  obtain ⟨s₁, h₁, h⟩ := Except.bind_eq_ok.1 (h : (feed limit s 'r' >>= fun s => run limit s ['\n']) = _)
  obtain ⟨s₂, h₂, -⟩ := Except.bind_eq_ok.1 (h : (feed limit s₁ '\n' >>= fun s => run limit s []) = _)
  obtain ⟨err, herr⟩ := feed_letter_break hs h₁
  rw [herr] at h₂
  cases h₂

/-- **No break stands between two objects.** -/
theorem loads_objects (limit : Nat) (a b : Str) (value : Value F) :
    loads limit (a ++ (['}', '\n', '{'] ++ b)) ≠ .ok value := by
  refine loads_refuses (fun s s' hs h => ?_) a b value
  obtain ⟨s₁, h₁, h⟩ := Except.bind_eq_ok.1 (h : (feed limit s '}' >>= fun s => run limit s ['\n', '{']) = _)
  obtain ⟨s₂, h₂, h⟩ := Except.bind_eq_ok.1 (h : (feed limit s₁ '\n' >>= fun s => run limit s ['{']) = _)
  obtain ⟨s₃, h₃, -⟩ := Except.bind_eq_ok.1 (h : (feed limit s₂ '{' >>= fun s => run limit s []) = _)
  obtain ⟨err, herr⟩ := feed_objects hs h₁ h₂
  rw [herr] at h₃
  cases h₃

end Py.Json
