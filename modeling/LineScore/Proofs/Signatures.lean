import LineScore.Attempt
import LineScore.Meter
import LineScore.Proofs.Forms
import LineScore.Proofs.Words

/-! The written form of time signatures. Two numerals stand on the two sides of a slash, and blanks may stand
around each of them. A text that has this form has it in one way only, so what is read from it is what its
numerals are worth; and a time signature is read back however its parts are spaced. -/

namespace LineScore

namespace Text

/-- Blanks in a row, or none. -/
structure Gap where
  blanks : List Char
  isBlank_of_mem : ∀ c ∈ blanks, isBlank c = true

/-- Digits in a row, at least one. -/
structure Numeral where
  digits : List Char
  ne_nil : digits ≠ []
  isDigit_of_mem : ∀ c ∈ digits, isDigit c = true

namespace Gap

variable {rest : List Char}

/-- The gap between parts that stand next to each other. -/
def empty : Gap :=
  ⟨[], fun _ hc => absurd hc List.not_mem_nil⟩

/-- The gap that a text begins with. -/
def front (text : List Char) : Gap :=
  ⟨text.takeWhile isBlank, fun _ => List.mem_takeWhile_imp⟩

theorem front_append_dropWhile (text : List Char) : (front text).blanks ++ text.dropWhile isBlank = text :=
  List.takeWhile_append_dropWhile

theorem isDigit_of_mem (gap : Gap) : ∀ c ∈ gap.blanks, isDigit c = false := by
  intro c hc
  by_contra hdigit
  have hblank := isBlank_of_isDigit (by simpa using hdigit)
  rw [gap.isBlank_of_mem c hc] at hblank
  cases hblank

theorem dropWhile_append (gap : Gap) (hrest : ∀ c ∈ rest.head?, isBlank c = false) :
    (gap.blanks ++ rest).dropWhile isBlank = rest :=
  (Token.run_append gap.isBlank_of_mem hrest).2

/-- A gap does not begin with a digit. -/
theorem head_append (gap : Gap) (hrest : ∀ c ∈ rest.head?, isDigit c = false) :
    ∀ c ∈ (gap.blanks ++ rest).head?, isDigit c = false := by
  intro c hc
  cases hblanks : gap.blanks with
  | nil => exact hrest c (by rwa [hblanks] at hc)
  | cons d blanks =>
      rw [hblanks] at hc
      obtain rfl := Option.some.inj hc
      exact gap.isDigit_of_mem d (hblanks ▸ List.mem_cons_self)

end Gap

namespace Numeral

variable {rest : List Char}

def value (n : Numeral) : Nat :=
  numeral n.digits

/-- The numeral that a number is written with. -/
def ofNat (n : Nat) : Numeral :=
  ⟨Nat.toDigits 10 n, Nat.toDigits_ne_nil, fun _ => isDigit_of_mem_toDigits⟩

theorem value_of_toString {n : Numeral} {k : Nat} (h : n.digits = (toString k).toList) : n.value = k := by
  rw [value, h, toList_toString, numeral_toDigits]

theorem run_append (n : Numeral) (hrest : ∀ c ∈ rest.head?, isDigit c = false) :
    (n.digits ++ rest).takeWhile isDigit = n.digits ∧ (n.digits ++ rest).dropWhile isDigit = rest :=
  Token.run_append n.isDigit_of_mem hrest

/-- A numeral does not begin with a blank. -/
theorem head_append (n : Numeral) : ∀ c ∈ (n.digits ++ rest).head?, isBlank c = false := by
  obtain ⟨digits, hne, hdigits⟩ := n
  obtain ⟨d, others, rfl⟩ := List.exists_cons_of_ne_nil hne
  intro c hc
  obtain rfl := Option.some.inj hc
  exact isBlank_of_isDigit (hdigits d List.mem_cons_self)

end Numeral

end Text

namespace Meter

open Text

/-- A written time signature part by part. -/
structure Form where
  before : Gap
  numerator : Numeral
  beforeSlash : Gap
  afterSlash : Gap
  denominator : Numeral
  after : Gap

namespace Form

def text (f : Form) : List Char :=
  f.before.blanks ++ (f.numerator.digits ++ (f.beforeSlash.blanks ++
    '/' :: (f.afterSlash.blanks ++ (f.denominator.digits ++ f.after.blanks))))

/-- Whether a form stands for a time signature: its numerals can be read and are not worth zero. -/
structure IsReadable (f : Form) : Prop where
  numerator_short : f.numerator.digits.length ≤ maxDigits
  denominator_short : f.denominator.digits.length ≤ maxDigits
  numerator_pos : 0 < f.numerator.value
  denominator_pos : 0 < f.denominator.value

def meter (f : Form) (h : f.IsReadable) : Meter :=
  ⟨f.numerator.value, f.denominator.value, h.numerator_pos, h.denominator_pos⟩

/-- The numerals of a form are found. -/
theorem scan?_text (f : Form) : scan? f.text = some (f.numerator.digits, f.denominator.digits) := by
  have hslash : ∀ rest : List Char, ∀ c ∈ ('/' :: rest).head?, isDigit c = false ∧ isBlank c = false := by
    intro rest c hc
    obtain rfl := Option.some.inj hc
    decide
  have hafter : f.after.blanks.dropWhile isBlank = [] := List.dropWhile_eq_nil_iff.mpr f.after.isBlank_of_mem
  have hend : ∀ c ∈ f.after.blanks.head?, isDigit c = false := fun c hc =>
    f.after.isDigit_of_mem c (List.mem_of_mem_head? hc)
  -- from the front of the text to its end, each part is taken off before the next one begins
  obtain ⟨hdenominator, hlast⟩ := f.denominator.run_append hend
  rw [text]
  generalize hright : f.afterSlash.blanks ++ (f.denominator.digits ++ f.after.blanks) = right
  obtain ⟨hnumerator, hmiddle⟩ :=
    f.numerator.run_append (f.beforeSlash.head_append fun c hc => (hslash right c hc).1)
  unfold scan?
  simp only [f.before.dropWhile_append f.numerator.head_append, hnumerator, hmiddle,
    f.beforeSlash.dropWhile_append fun c hc => (hslash right c hc).2]
  rw [← hright, f.afterSlash.dropWhile_append f.denominator.head_append, hdenominator, hlast, hafter]
  simp [f.numerator.ne_nil, f.denominator.ne_nil]

/-- What is found in a text are the numerals of a form that the text has. -/
theorem exists_of_scan? {text numerator denominator : List Char}
    (h : scan? text = some (numerator, denominator)) :
    ∃ f : Form, f.text = text ∧ f.numerator.digits = numerator ∧ f.denominator.digits = denominator := by
  unfold scan? at h
  dsimp only at h
  split at h
  · next rest hslash =>
      split at h
      · next hparts =>
          cases h
          simp only [Bool.and_eq_true, Bool.not_eq_true', List.isEmpty_eq_false_iff, List.isEmpty_iff,
            List.dropWhile_eq_nil_iff] at hparts
          obtain ⟨⟨hnumerator, hdenominator⟩, hafter⟩ := hparts
          refine ⟨⟨.front text, ⟨_, hnumerator, fun _ => List.mem_takeWhile_imp⟩,
            .front ((text.dropWhile isBlank).dropWhile isDigit), .front rest,
            ⟨_, hdenominator, fun _ => List.mem_takeWhile_imp⟩, ⟨_, hafter⟩⟩, ?_, rfl, rfl⟩
          -- the parts that were taken off are put back, from the last one to the first
          rw [Form.text, List.takeWhile_append_dropWhile, Gap.front_append_dropWhile, ← hslash,
            Gap.front_append_dropWhile, List.takeWhile_append_dropWhile, Gap.front_append_dropWhile]
      · cases h
  · cases h

end Form

theorem numeral_eq_ok_iff {digits : List Char} {n : Nat} :
    Meter.numeral digits = .ok n ↔ digits.length ≤ maxDigits ∧ Text.numeral digits = n := by
  rw [← numeral?_eq_some_iff, Meter.numeral]
  cases numeral? digits <;> simp

theorem make?_eq_ok_iff {numerator denominator : Nat} {m : Meter} :
    make? numerator denominator = .ok m ↔ numerator = m.numerator ∧ denominator = m.denominator := by
  constructor
  · intro h
    unfold make? at h
    split at h
    · cases h
      simp
    · cases h
  · rintro ⟨rfl, rfl⟩
    have hpos : 0 < (m.numerator : Int) ∧ 0 < (m.denominator : Int) :=
      ⟨Int.natCast_pos.mpr m.numerator_pos, Int.natCast_pos.mpr m.denominator_pos⟩
    rw [make?, dif_pos hpos]
    rfl

/-- A text is read as a time signature if it has a form whose numerals can be read and are worth its parts. -/
theorem parse_eq_ok_iff {text : String} {m : Meter} :
    parse text = .ok m ↔ ∃ f : Form, f.text = text.toList ∧ f.IsReadable ∧
      f.numerator.value = m.numerator ∧ f.denominator.value = m.denominator := by
  constructor
  · intro h
    unfold parse at h
    split at h
    · cases h
    · next n d hscan =>
        obtain ⟨f, htext, rfl, rfl⟩ := Form.exists_of_scan? hscan
        obtain ⟨numerator, hnumerator, h⟩ := exists_of_bind_eq_ok h
        obtain ⟨denominator, hdenominator, hmake⟩ := exists_of_bind_eq_ok h
        obtain ⟨hshort, hvalue⟩ := numeral_eq_ok_iff.mp hnumerator
        obtain ⟨hshort', hvalue'⟩ := numeral_eq_ok_iff.mp hdenominator
        obtain ⟨rfl, rfl⟩ := make?_eq_ok_iff.mp hmake
        have hread : f.IsReadable := by
          refine ⟨hshort, hshort', ?_, ?_⟩
          · rw [Numeral.value, hvalue]
            exact m.numerator_pos
          · rw [Numeral.value, hvalue']
            exact m.denominator_pos
        exact ⟨f, htext, hread, hvalue, hvalue'⟩
  · rintro ⟨f, htext, hread, hnumerator, hdenominator⟩
    have hn : Meter.numeral f.numerator.digits = .ok m.numerator :=
      numeral_eq_ok_iff.mpr ⟨hread.numerator_short, hnumerator⟩
    have hd : Meter.numeral f.denominator.digits = .ok m.denominator :=
      numeral_eq_ok_iff.mpr ⟨hread.denominator_short, hdenominator⟩
    have hmake : make? m.numerator m.denominator = .ok m := make?_eq_ok_iff.mpr ⟨rfl, rfl⟩
    rw [parse, ← htext, f.scan?_text]
    simp only [hn, hd]
    exact hmake

/-- Whether the parts of a time signature are short enough to be read again. -/
structure IsShort (m : Meter) : Prop where
  numerator : (toString m.numerator).length ≤ maxDigits
  denominator : (toString m.denominator).length ≤ maxDigits

/-- Whether a form is a time signature as it is written, its numbers spaced in any way. -/
structure Form.IsOf (f : Form) (m : Meter) : Prop where
  numerator : f.numerator.digits = (toString m.numerator).toList
  denominator : f.denominator.digits = (toString m.denominator).toList

theorem parse_of_isOf {m : Meter} (hshort : m.IsShort) {f : Form} (hform : f.IsOf m) {text : String}
    (htext : f.text = text.toList) : parse text = .ok m := by
  have hnumerator := Numeral.value_of_toString hform.numerator
  have hdenominator := Numeral.value_of_toString hform.denominator
  refine parse_eq_ok_iff.mpr ⟨f, htext, ⟨?_, ?_, ?_, ?_⟩, hnumerator, hdenominator⟩
  · rw [hform.numerator, String.length_toList]
    exact hshort.numerator
  · rw [hform.denominator, String.length_toList]
    exact hshort.denominator
  · exact hnumerator ▸ m.numerator_pos
  · exact hdenominator ▸ m.denominator_pos

theorem exists_form_of_text (m : Meter) : ∃ f : Form, f.IsOf m ∧ f.text = m.text.toList := by
  refine ⟨⟨.empty, .ofNat m.numerator, .empty, .empty, .ofNat m.denominator, .empty⟩,
    ⟨(toList_toString _).symm, (toList_toString _).symm⟩, ?_⟩
  have htext : m.text = toString m.numerator ++ "/" ++ toString m.denominator := rfl
  rw [htext, String.toList_append, String.toList_append, toList_toString, toList_toString]
  simp [Form.text, Gap.empty, Numeral.ofNat]

/-- A text is read as a time signature exactly if it has the form of one, with numerals that are not too long
and not worth zero, and what is read has the values of these numerals. A time signature with numbers that are
not too long is read back from its text, and from any text that differs from it in blanks around the numbers. -/
theorem parse_written :
    (∀ text, (∃ m, parse text = .ok m) ↔ ∃ f : Form, f.text = text.toList ∧ f.IsReadable) ∧
    (∀ text m, parse text = .ok m → ∀ f : Form, f.text = text.toList →
      m.numerator = f.numerator.value ∧ m.denominator = f.denominator.value) ∧
    ∀ m : Meter, m.IsShort → parse m.text = .ok m ∧
      ∀ f : Form, f.IsOf m → parse (String.ofList f.text) = .ok m := by
  refine ⟨fun text => ⟨?reads, ?isRead⟩, fun text m hparse f htext => ?values, fun m hshort => ⟨?back, ?spaced⟩⟩
  case reads =>
    rintro ⟨m, hparse⟩
    obtain ⟨f, htext, hread, -⟩ := parse_eq_ok_iff.mp hparse
    exact ⟨f, htext, hread⟩
  case isRead =>
    rintro ⟨f, htext, hread⟩
    exact ⟨f.meter hread, parse_eq_ok_iff.mpr ⟨f, htext, hread, rfl, rfl⟩⟩
  case values =>
    obtain ⟨g, hother, -, hnumerator, hdenominator⟩ := parse_eq_ok_iff.mp hparse
    -- a text has the numerals of one form only, those that are found in it
    have hscan := f.scan?_text.symm.trans ((congrArg scan? (htext.trans hother.symm)).trans g.scan?_text)
    obtain ⟨hsame, hsame'⟩ := Prod.mk.inj (Option.some.inj hscan)
    rw [← hnumerator, ← hdenominator, Numeral.value, Numeral.value, Numeral.value, Numeral.value, hsame, hsame']
    exact ⟨rfl, rfl⟩
  case back =>
    obtain ⟨f, hform, htext⟩ := m.exists_form_of_text
    exact parse_of_isOf hshort hform htext
  case spaced => exact fun f hform => parse_of_isOf hshort hform (String.toList_ofList).symm

/-- A time signature is read back, and so it is with blanks around its numbers and a line break at the end. -/
theorem parse_written_spaced :
    let m : Meter := ⟨3, 4, by decide, by decide⟩
    m.IsShort ∧ parse m.text = .ok m ∧ parse " 3\n/\t4\n" = .ok m := by
  intro m
  obtain ⟨-, -, hback⟩ := parse_written
  have hshort : m.IsShort := ⟨by decide +kernel, by decide +kernel⟩
  let f : Form := ⟨.front [' '], .ofNat 3, .front ['\n'], .front ['\t'], .ofNat 4, .front ['\n']⟩
  have hform : f.IsOf m := ⟨(toList_toString 3).symm, (toList_toString 4).symm⟩
  have htext : String.ofList f.text = " 3\n/\t4\n" := by decide +kernel
  exact ⟨hshort, (hback m hshort).1, htext ▸ (hback m hshort).2 f hform⟩

example : parse " ٣\n/\t4\n" = .ok ⟨3, 4, by decide, by decide⟩ := by decide +kernel

end Meter

end LineScore
