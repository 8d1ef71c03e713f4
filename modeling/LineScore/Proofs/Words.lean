import LineScore.Text.Blank
import LineScore.Text.Digits
import Mathlib.Algebra.Group.Nat.Defs
import Mathlib.Data.List.Induction

/-! The words of a text and the digits of a number. A blank parts the words of the texts around it, and
words with blanks between them are read back. The digits that a number is written with are worth the
number, and a number that is read has no more digits than it was written with. -/

namespace LineScore.Text

theorem wordsFrom_append_blank {c : Char} (hblank : isBlank c = true) (pending before after : List Char) :
    wordsFrom pending (before ++ c :: after) = wordsFrom pending before ++ words after := by
  induction before generalizing pending with
  | nil =>
      simp only [List.nil_append, wordsFrom, hblank, if_true]
      cases pending <;> rfl
  | cons d before ih =>
      rw [List.cons_append, wordsFrom, wordsFrom, ih, ih]
      by_cases hd : isBlank d = true
      · cases pending <;> simp [hd]
      · simp [hd]

/-- A blank parts the words before it from those after it. -/
theorem words_append_blank {c : Char} (hblank : isBlank c = true) (before after : List Char) :
    words (before ++ c :: after) = words before ++ words after :=
  wordsFrom_append_blank hblank [] before after

theorem exists_mem_wordsFrom {c : Char} (hc : isBlank c = false) {pending text : List Char}
    (h : c ∈ pending ∨ c ∈ text) : ∃ word ∈ wordsFrom pending text, c ∈ word := by
  have hrest : ∀ {d : Char} {rest : List Char}, isBlank d = true → c ∈ d :: rest → c ∈ rest := by
    intro d rest hd hmem
    refine (List.mem_cons.mp hmem).resolve_left fun heq => ?_
    rw [← heq, hc] at hd
    cases hd
  fun_induction wordsFrom pending text with
  | case1 pending hempty => simp [List.isEmpty_iff.mp hempty] at h
  | case2 pending hpending =>
      exact ⟨pending.reverse, List.mem_singleton_self _, List.mem_reverse.mpr (by simpa using h)⟩
  | case3 pending d rest hblank hempty ih =>
      rw [List.isEmpty_iff.mp hempty] at h
      exact ih (h.imp id (hrest hblank))
  | case4 pending d rest hblank hpending ih =>
      rcases h with hmem | hmem
      · exact ⟨pending.reverse, List.mem_cons_self, List.mem_reverse.mpr hmem⟩
      · obtain ⟨word, hword, hin⟩ := ih (.inr (hrest hblank hmem))
        exact ⟨word, List.mem_cons_of_mem _ hword, hin⟩
  | case5 pending d rest hletter ih =>
      refine ih ?_
      rcases h with hmem | hmem
      · exact .inl (List.mem_cons_of_mem _ hmem)
      · rcases List.mem_cons.mp hmem with rfl | hmem
        · exact .inl List.mem_cons_self
        · exact .inr hmem

/-- A character that is no blank stands in a word. -/
theorem exists_mem_words {c : Char} (hc : isBlank c = false) {text : List Char} (h : c ∈ text) :
    ∃ word ∈ words text, c ∈ word :=
  exists_mem_wordsFrom hc (.inr h)

structure IsWord (text : List Char) : Prop where
  ne_nil : text ≠ []
  noBlank : ∀ c ∈ text, isBlank c = false

/-- That a text has no blank can be checked by evaluation. -/
theorem noBlank_of_all {text : List Char} (h : text.all (fun c => !isBlank c) = true) :
    ∀ c ∈ text, isBlank c = false := by
  simpa using h

theorem wordsFrom_of_noBlank {text : List Char} (hnone : ∀ c ∈ text, isBlank c = false)
    (pending : List Char) :
    wordsFrom pending text = if pending.reverse ++ text = [] then [] else [pending.reverse ++ text] := by
  induction text generalizing pending with
  | nil => cases pending <;> simp [wordsFrom]
  | cons c text ih =>
      obtain ⟨hc, htext⟩ := List.forall_mem_cons.mp hnone
      rw [wordsFrom, hc, if_neg Bool.false_ne_true, ih htext]
      simp

theorem IsWord.words_eq {text : List Char} (h : IsWord text) : words text = [text] := by
  rw [words, wordsFrom_of_noBlank h.noBlank, List.reverse_nil, List.nil_append, if_neg h.ne_nil]

/-- Words with blanks between them are read back. -/
theorem words_intercalate {texts : List (List Char)} (hwords : ∀ text ∈ texts, IsWord text) :
    words ([' '].intercalate texts) = texts := by
  induction texts with
  | nil => rfl
  | cons text texts ih =>
      obtain ⟨htext, htexts⟩ := List.forall_mem_cons.mp hwords
      cases texts with
      | nil => rw [List.intercalate_singleton, htext.words_eq]
      | cons other texts =>
          rw [List.intercalate_cons_cons, List.append_assoc, List.singleton_append,
            words_append_blank (by decide), htext.words_eq, ih htexts, List.singleton_append]

theorem digitValue?_of_isDigit {c : Char} (hc : c.isDigit = true) :
    digitValue? c = some (c.toNat - '0'.toNat) := by
  have hrange : 48 ≤ c.toNat ∧ c.toNat < 58 := by
    rw [Char.isDigit_iff_toNat] at hc
    exact ⟨hc.1, Nat.lt_succ_of_le hc.2⟩
  rw [digitValue?, digitZeros, List.find?_cons_of_pos (by simpa using hrange)]
  rfl

theorem isDigit_of_mem_toDigits {n : Nat} {c : Char} (hc : c ∈ Nat.toDigits 10 n) : isDigit c = true := by
  rw [isDigit, digitValue?_of_isDigit (Nat.isDigit_of_mem_toDigits (by decide) (by decide) hc)]
  rfl

theorem toList_toString (n : Nat) : (toString n).toList = Nat.toDigits 10 n := by
  change n.repr.toList = Nat.toDigits 10 n
  rw [Nat.repr_eq_ofList_toDigits, String.toList_ofList]

/-- The digits that a number is written with are worth the number. -/
theorem numeral_toDigits (n : Nat) : numeral (Nat.toDigits 10 n) = n := by
  have hvalues : ∀ digits : List Char, (∀ c ∈ digits, c.isDigit = true) → ∀ total,
      digits.foldl (fun total c => 10 * total + (digitValue? c).getD 0) total =
        Nat.ofDigitChars 10 digits total := by
    intro digits hdigits
    induction digits with
    | nil => exact fun _ => rfl
    | cons c digits ih =>
        obtain ⟨hc, hrest⟩ := List.forall_mem_cons.mp hdigits
        intro total
        rw [List.foldl_cons, ih hrest, digitValue?_of_isDigit hc]
        rfl
  calc numeral (Nat.toDigits 10 n)
      = Nat.ofDigitChars 10 (Nat.toDigits 10 n) 0 :=
        hvalues _ (fun _ hc => Nat.isDigit_of_mem_toDigits (by decide) (by decide) hc) 0
    _ = n := Nat.ofDigitChars_ten_toDigits

/-- No digit is a blank. -/
theorem isBlank_of_isDigit {c : Char} (hc : isDigit c = true) : isBlank c = false := by
  have hapart : ∀ base ∈ digitZeros, ∀ code ∈ blankCodes, code < base ∨ base + 10 ≤ code := by decide +kernel
  obtain ⟨value, hvalue⟩ := Option.isSome_iff_exists.mp hc
  obtain ⟨base, hbase, -⟩ := Option.map_eq_some_iff.mp hvalue
  have hrange := List.find?_some hbase
  simp only [Bool.and_eq_true, decide_eq_true_eq] at hrange
  rw [isBlank, List.contains_eq_mem, decide_eq_false_iff_not]
  intro hblank
  have := hapart base (List.mem_of_find?_eq_some hbase) _ hblank
  omega

theorem digitValue?_lt {c : Char} {value : Nat} (h : digitValue? c = some value) : value < 10 := by
  obtain ⟨base, hbase, rfl⟩ := Option.map_eq_some_iff.mp h
  have hrange := List.find?_some hbase
  simp only [Bool.and_eq_true, decide_eq_true_eq] at hrange
  omega

/-- A number has no more digits than it is written with. -/
theorem numeral_lt (digits : List Char) : numeral digits < 10 ^ digits.length := by
  induction digits using List.reverseRecOn with
  | nil => decide
  | append_singleton digits c ih =>
      have hvalue : (digitValue? c).getD 0 < 10 := by
        cases h : digitValue? c with
        | none => decide
        | some value => exact digitValue?_lt h
      rw [numeral, List.foldl_append, List.foldl_cons, List.foldl_nil, ← numeral, List.length_append,
        List.length_singleton, Nat.pow_succ]
      omega

end LineScore.Text
