import LineScore.Command.Run
import LineScore.Proofs.Joining
import LineScore.Proofs.Signatures
import Mathlib.Data.List.Basic
import Mathlib.Data.List.TakeWhile

/-! Texts with halves of surrogate pairs. One half is enough for a text not to be printed: control codes consist
of characters, so a text that loses its control codes keeps all its halves. Nor is a text with a half ever read,
as a time signature or as notation, since it is read as it is shown, and neither has a backslash. -/

namespace LineScore

/-- Whether a text is free of halves of surrogate pairs. -/
def LooseText.IsWhole (t : LooseText) : Prop :=
  ∀ p ∈ t.points, p.isChar = true

namespace LooseText

@[simp] theorem isWhole_ofString (text : String) : (ofString text).IsWhole := by
  intro p hp
  obtain ⟨c, -, rfl⟩ := List.mem_map.mp hp
  rfl

@[simp] theorem isWhole_append {a b : LooseText} : (a ++ b).IsWhole ↔ a.IsWhole ∧ b.IsWhole :=
  List.forall_mem_append

/-- A half is shown as an escape, which begins with a backslash. -/
theorem isWhole_of_backslash_notMem {t : LooseText} (h : '\x5c' ∉ t.shown.toList) : t.IsWhole := by
  intro p hp
  cases p with
  | char c => rfl
  | half place =>
      have hescape : '\x5c' ∈ Text.escapeCode (0xd800 + place) := by
        unfold Text.escapeCode
        split
        · exact List.mem_cons_self
        · split <;> exact List.mem_cons_self
      rw [shown, String.toList_ofList] at h
      exact absurd (List.mem_flatMap.mpr ⟨.half place, hp, hescape⟩) h

theorem unfit?_eq_none_iff {fits : Text.CodePoint → Bool} {t : LooseText} :
    t.unfit? fits = none ↔ ∀ p ∈ t.points, fits p = true := by
  rw [← List.dropWhile_eq_nil_iff, unfit?]
  cases t.points.dropWhile fits with
  | nil => simp
  | cons p rest => simp

end LooseText

namespace Text

theorem isChar_of_isBetween {low high : Char} {p : CodePoint} (h : isBetween low high p = true) :
    p.isChar = true := by
  cases p with
  | char c => rfl
  | half place => cases h

/-- A control code consists of its parameters, its marks and the character that ends it. -/
theorem parts_of_codeLength? {text : List CodePoint} {length : Nat} (h : codeLength? text = some length) :
    ∃ parameters marks : List CodePoint, ∃ last rest, text = parameters ++ (marks ++ last :: rest) ∧
      length = parameters.length + marks.length + 1 ∧ (∀ p ∈ parameters, isCodeParameter p = true) ∧
      (∀ p ∈ marks, isCodeMark p = true) ∧ isCodeEnd last = true := by
  unfold codeLength? at h
  dsimp only at h
  split at h
  · next last rest hlast =>
      split at h
      · next hend =>
          refine ⟨text.takeWhile isCodeParameter, (text.dropWhile isCodeParameter).takeWhile isCodeMark, last, rest,
            ?_, (Option.some.inj h).symm, fun p => List.mem_takeWhile_imp, fun p => List.mem_takeWhile_imp, hend⟩
          rw [← hlast, List.takeWhile_append_dropWhile, List.takeWhile_append_dropWhile]
      · cases h
  · cases h

theorem isChar_of_codeLength? {text : List CodePoint} {length : Nat} (h : codeLength? text = some length) :
    ∀ p ∈ text.take length, p.isChar = true := by
  obtain ⟨parameters, marks, last, rest, rfl, rfl, hparameters, hmarks, hend⟩ := parts_of_codeLength? h
  intro p hp
  rw [← List.append_assoc, ← List.length_append, List.take_length_add_append] at hp
  simp only [List.take_succ_cons, List.take_zero, List.mem_append, List.mem_singleton] at hp
  rcases hp with (hp | hp) | rfl
  · exact isChar_of_isBetween (hparameters p hp)
  · exact isChar_of_isBetween (hmarks p hp)
  · exact isChar_of_isBetween hend

/-- Taking out control codes takes out no halves. The characters of a code that are left to skip are told by
`hskip`. -/
theorem isChar_dropCodes (skip : Nat) (text : List CodePoint)
    (hskip : ∀ p ∈ text.take skip, p.isChar = true) :
    (∀ p ∈ dropCodes skip text, p.isChar = true) ↔ ∀ p ∈ text, p.isChar = true := by
  fun_induction dropCodes skip text with
  | case1 skip => simp
  | case2 p rest skip ih =>
      obtain ⟨hfirst, hothers⟩ := List.forall_mem_cons.mp hskip
      rw [ih hothers, List.forall_mem_cons, and_iff_right hfirst]
  | case3 text length hlength ih =>
      rw [ih (List.forall_mem_cons.mpr ⟨rfl, isChar_of_codeLength? hlength⟩), List.forall_mem_cons,
        List.forall_mem_cons, List.forall_mem_cons]
      simp [CodePoint.isChar]
  | case4 text hlength ih => rw [List.forall_mem_cons, List.forall_mem_cons, ih (by simp)]
  | case5 p rest hother ih => rw [List.forall_mem_cons, List.forall_mem_cons, ih (by simp)]

theorem isWhole_plain (t : LooseText) : (plain t).IsWhole ↔ t.IsWhole :=
  isChar_dropCodes 0 t.points (by simp)

end Text

namespace Meter

theorem Form.backslash_notMem (f : Form) : '\x5c' ∉ f.text := by
  have hgap : ∀ gap : Text.Gap, '\x5c' ∉ gap.blanks := fun gap hmem =>
    absurd (gap.isBlank_of_mem _ hmem) (by decide)
  have hnumeral : ∀ n : Text.Numeral, '\x5c' ∉ n.digits := fun n hmem =>
    absurd (n.isDigit_of_mem _ hmem) (by decide)
  have hslash : '\x5c' ≠ '/' := by decide
  rw [Form.text]
  simp only [List.mem_cons, List.mem_append, hgap, hnumeral, hslash, or_self, not_false_eq_true]

/-- A text that is read as a time signature has no halves. -/
theorem isWhole_of_parse {t : LooseText} {m : Meter} (h : parse t.shown = .ok m) : t.IsWhole := by
  obtain ⟨f, htext, -⟩ := parse_eq_ok_iff.mp h
  refine LooseText.isWhole_of_backslash_notMem ?_
  rw [← htext]
  exact f.backslash_notMem

end Meter

theorem Token.Form.backslash_notMem (form : Form) : '\x5c' ∉ form.text := by
  cases form with
  | octaveUp => decide
  | octaveDown => decide
  | event figures body =>
      have hfigures : '\x5c' ∉ Token.figuresText figures := by
        cases figures with
        | none => exact List.not_mem_nil
        | some d => exact d.notMem_text (by decide) (by decide) (by decide)
      have hbody : '\x5c' ∉ body.text := by
        cases body with
        | rest => decide
        | note letter accidental shift accented mark =>
            have hletter : '\x5c' ≠ letter.toChar := by cases letter <;> decide
            have haccidental : '\x5c' ∉ (accidental.map accidentalSign).toList := by
              rcases accidental with _ | _ | _ | _ <;> decide
            have hshift : '\x5c' ∉ shiftSigns shift := by
              cases shift with
              | ofNat n => exact fun hmem => absurd (List.eq_of_mem_replicate hmem) (by decide)
              | negSucc n => exact fun hmem => absurd (List.eq_of_mem_replicate hmem) (by decide)
            have haccent : '\x5c' ∉ accentSigns accented := by cases accented <;> decide
            have hmark : '\x5c' ∉ (mark.map markSign).toList := by rcases mark with _ | _ | _ <;> decide
            rw [Body.text]
            simp only [List.mem_cons, List.mem_append, hletter, haccidental, hshift, haccent, hmark, or_self,
              not_false_eq_true]
      rw [Form.text, List.mem_append]
      exact not_or.mpr ⟨hfigures, hbody⟩

/-- Nor has a text that is read as notation. -/
theorem isWhole_of_playLine {context : LineContext} {default : Duration} {t : LooseText} {events : List Event}
    (h : playLine context default t.shown = .ok events) : t.IsWhole := by
  refine LooseText.isWhole_of_backslash_notMem fun hmem => ?_
  obtain ⟨word, hword, hin⟩ := Text.exists_mem_words (by decide) hmem
  obtain ⟨token, hread⟩ := exists_read_of_playTokens h word hword
  by_cases hform : ∃ form : Token.Form, form.text = word
  · obtain ⟨form, rfl⟩ := hform
    exact form.backslash_notMem hin
  · rw [Token.Form.read_of_ne_text fun form htext => hform ⟨form, htext⟩] at hread
    cases hread

namespace Command

theorem printed_eq_ok_iff {t : LooseText} {text : String} :
    printed t = .ok text ↔ t.IsWhole ∧ t.shown = text := by
  have hwhole : (Text.plain t).unfit? Text.CodePoint.isChar = none ↔ t.IsWhole :=
    LooseText.unfit?_eq_none_iff.trans (Text.isWhole_plain t)
  unfold printed
  split
  · next hnone => simp [hwhole.mp hnone]
  · next fault hsome => simp [← hwhole, hsome]

theorem summary_succeeds_iff (s : Song) :
    (∃ line, summary s = .ok line) ↔
      (Text.integer? s.measureCount).isSome ∧ s.title.IsWhole ∧ s.author.IsWhole := by
  unfold summary integerText
  cases Text.integer? s.measureCount with
  | none => simp [bind, Except.bind]
  | some measures => simp [bind, Except.bind, printed_eq_ok_iff]

theorem voiceRow_succeeds_iff (channel : Nat) (t : Timeline) :
    (∃ row, voiceRow channel t = .ok row) ↔ t.instrument.name.IsWhole := by
  simp [voiceRow, printed_eq_ok_iff]

end Command

end LineScore
