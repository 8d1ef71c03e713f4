import LineScore.Notation.Line
import LineScore.Proofs.Forms

/-! The grammar of tokens. What is read is the texts of forms with a readable duration, and the form tells
what is played: its own parts where it has them, and what the line and the key have where it has not. A text
with too many digits is an error of its own, and every other text is refused. -/

namespace LineScore

namespace Token

namespace Form

/-- Whether the duration of a form, if it has one, can be read. -/
def IsReadable (form : Form) : Prop :=
  ∀ d ∈ form.figures?, d.IsReadable

/-- The event that a form tells. A duration that is absent is the line's, an accidental that is absent the
key's, and a note is staccato if it is marked so, or if the line is and the note is not marked otherwise. -/
def event? (context : LineContext) (state : LineState) : Form → Option Event
  | .octaveUp => none
  | .octaveDown => none
  | .event figures .rest => some (.rest (figures.elim state.default Figures.duration))
  | .event figures (.note letter accidental shift accented mark) =>
      some (.note {
        duration := figures.elim state.default Figures.duration
        letter
        accidental := accidental.getD (context.key.accidentalFor letter)
        octave := state.octave + shift
        accented
        articulation :=
          if mark = some .staccato ∨ (context.staccato ∧ mark ≠ some .legato) then .staccato else .legato })

/-- The octave of what follows a form. -/
def octaveAfter (octave : Int) : Form → Int
  | .octaveUp => octave + 1
  | .octaveDown => octave - 1
  | .event _ _ => octave

end Form

/-- What comes of reading the text of a form. -/
def Form.value : Form → Except Error Token
  | .octaveUp => .ok .octaveUp
  | .octaveDown => .ok .octaveDown
  | .event none body => .ok body.token
  | .event (some d) body =>
      if Text.maxDigits < d.digits.length then .error (.longNumeral d.digits.length)
      else if Text.numeral d.digits = 0 then
        .error (.unparseableToken (String.ofList (Form.event (some d) body).text) none none)
      else .ok (body.token.withDuration d.duration)

theorem read_of_ne {text : List Char} (hup : text ≠ ['+']) (hdown : text ≠ ['-']) :
    read text =
      match scanBody? (takeFigure text).2, (takeFigure text).1 with
      | none, _ => .error (.unparseableToken (String.ofList text) none none)
      | some token, none => .ok token
      | some token, some figure =>
          match Text.numeral? figure.digits with
          | none => .error (.longNumeral figure.digits.length)
          | some 0 => .error (.unparseableToken (String.ofList text) none none)
          | some n => .ok (token.withDuration ⟨n, figure.dots⟩) := by
  unfold read
  dsimp only
  split
  · exact absurd rfl hup
  · exact absurd rfl hdown
  · rfl

namespace Form

theorem read_text (form : Form) : read form.text = form.value := by
  cases form with
  | octaveUp => rfl
  | octaveDown => rfl
  | event figures body =>
      rw [read_of_ne (text_ne_of_scanBody? (by decide)) (text_ne_of_scanBody? (by decide)), takeFigure_text,
        scanBody?_text]
      cases figures with
      | none => rfl
      | some d =>
          dsimp only [Option.map_some, value]
          by_cases hlong : Text.maxDigits < d.digits.length
          · rw [Text.numeral?, if_neg (not_le.mpr hlong), if_pos hlong]
          · rw [Text.numeral?, if_pos (not_lt.mp hlong), if_neg hlong]
            cases hvalue : Text.numeral d.digits with
            | zero => rfl
            | succ n =>
                rw [if_neg (Nat.succ_ne_zero n), Figures.duration, hvalue]
                rfl

/-- A text that is no form's is refused. -/
theorem read_of_ne_text {text : List Char} (hnone : ∀ form : Form, form.text ≠ text) :
    read text = .error (.unparseableToken (String.ofList text) none none) := by
  rw [read_of_ne (Ne.symm (hnone .octaveUp)) (Ne.symm (hnone .octaveDown))]
  cases hbody : scanBody? (takeFigure text).2 with
  | none => rfl
  | some token =>
      obtain ⟨figures, -, htext⟩ := exists_of_takeFigure text
      obtain ⟨body, hbody, -⟩ := exists_of_scanBody? hbody
      rw [hbody] at htext
      exact absurd htext.symm (hnone (.event figures body))

/-- What a form tells is what the token that it is read as does to a line. -/
structure Tells (form : Form) (token : Token) : Prop where
  event (context : LineContext) (state : LineState) : token.event? context state = form.event? context state
  next (state : LineState) : token.next state = { state with octave := form.octaveAfter state.octave }

theorem tells_of_event (figures : Option Figures) (body : Body) :
    Tells (.event figures body) (figures.elim body.token fun d => body.token.withDuration d.duration) where
  event context state := by
    cases body with
    | rest => cases figures <;> rfl
    | note letter accidental shift accented mark =>
        have harticulation : mark.getD (if context.staccato then .staccato else .legato) =
            if mark = some .staccato ∨ (context.staccato ∧ mark ≠ some .legato) then .staccato else .legato := by
          cases mark with
          | none => simp
          | some mark => cases mark <;> simp
        cases figures <;> simp [event?, Body.token, withDuration, Token.event?, WrittenNote.resolve, harticulation]
  next state := by
    cases body <;> cases figures <;> rfl

theorem value_of_readable {form : Form} (h : form.IsReadable) :
    ∃ token, form.value = .ok token ∧ form.Tells token := by
  cases form with
  | octaveUp => exact ⟨_, rfl, fun _ _ => rfl, fun _ => rfl⟩
  | octaveDown => exact ⟨_, rfl, fun _ _ => rfl, fun _ => rfl⟩
  | event figures body =>
      refine ⟨_, ?_, tells_of_event figures body⟩
      cases figures with
      | none => rfl
      | some d =>
          obtain ⟨hshort, hnonzero⟩ := h d rfl
          rw [value, if_neg (not_lt.mpr hshort), if_neg hnonzero]
          rfl

theorem value_of_long {form : Form} {d : Figures} (hd : d ∈ form.figures?) (hlong : d.IsLong) :
    form.value = .error (.longNumeral d.digits.length) := by
  cases form with
  | octaveUp => cases hd
  | octaveDown => cases hd
  | event figures body =>
      obtain rfl : figures = some d := hd
      exact if_pos hlong

/-- A duration of zero is as good as none. -/
theorem value_of_unreadable {form : Form} (h : ¬ form.IsReadable) (hshort : ∀ d ∈ form.figures?, ¬ d.IsLong) :
    form.value = .error (.unparseableToken (String.ofList form.text) none none) := by
  rw [IsReadable] at h
  push Not at h
  obtain ⟨d, hd, hnot⟩ := h
  have hzero : Text.numeral d.digits = 0 := by
    by_contra hnonzero
    exact hnot ⟨not_lt.mp (hshort d hd), hnonzero⟩
  cases form with
  | octaveUp => cases hd
  | octaveDown => cases hd
  | event figures body =>
      obtain rfl : figures = some d := hd
      have hfew : ¬ Text.maxDigits < d.digits.length := hshort d rfl
      rw [value, if_neg hfew, if_pos hzero]

end Form

end Token

open Token

variable {context : LineContext} {state : LineState}

theorem playToken_of_readable {form : Form} (h : form.IsReadable) :
    playToken context state form.text =
      .ok (form.event? context state, { state with octave := form.octaveAfter state.octave }) := by
  obtain ⟨token, hvalue, htells⟩ := Form.value_of_readable h
  rw [playToken, Form.read_text, hvalue, Except.map, htells.event, htells.next]

theorem playToken_of_long {form : Form} {d : Figures} (hd : d ∈ form.figures?) (hlong : d.IsLong) :
    playToken context state form.text = .error (.longNumeral d.digits.length) := by
  rw [playToken, Form.read_text, Form.value_of_long hd hlong, Except.map]

/-- Whether a text is no token: it has no form, or one with a duration of zero. -/
def IsNoToken (text : List Char) : Prop :=
  ∀ form : Form, form.text = text → ¬ form.IsReadable ∧ ∀ d ∈ form.figures?, ¬ d.IsLong

theorem playToken_of_isNoToken {text : List Char} (h : IsNoToken text) :
    playToken context state text = .error (.unparseableToken (String.ofList text) none none) := by
  rw [playToken]
  by_cases hform : ∃ form : Form, form.text = text
  · obtain ⟨form, rfl⟩ := hform
    obtain ⟨hunreadable, hshort⟩ := h form rfl
    rw [Form.read_text, Form.value_of_unreadable hunreadable hshort, Except.map]
  · rw [Form.read_of_ne_text fun form htext => hform ⟨form, htext⟩, Except.map]

/-- What comes of playing a text: a readable form tells its event, too many digits are an error of their own,
and what is no token is refused. -/
inductive Played (context : LineContext) (state : LineState) (text : List Char) :
    Except Error (Option Event × LineState) → Prop where
  | read {form : Form} (htext : form.text = text) (hread : form.IsReadable) :
      Played context state text
        (.ok (form.event? context state, { state with octave := form.octaveAfter state.octave }))
  | long {form : Form} {d : Figures} (htext : form.text = text) (hd : d ∈ form.figures?) (hlong : d.IsLong) :
      Played context state text (.error (.longNumeral d.digits.length))
  | refused (hnone : IsNoToken text) :
      Played context state text (.error (.unparseableToken (String.ofList text) none none))

theorem played (context : LineContext) (state : LineState) (text : List Char) :
    Played context state text (playToken context state text) := by
  by_cases hread : ∃ form : Form, form.text = text ∧ form.IsReadable
  · obtain ⟨form, htext, hread⟩ := hread
    have hplay : playToken context state form.text = _ := playToken_of_readable hread
    rw [htext] at hplay
    exact hplay ▸ .read htext hread
  · by_cases hlong : ∃ form : Form, form.text = text ∧ ∃ d ∈ form.figures?, d.IsLong
    · obtain ⟨form, htext, d, hd, hlong⟩ := hlong
      have hplay : playToken context state form.text = _ := playToken_of_long hd hlong
      rw [htext] at hplay
      exact hplay ▸ .long htext hd hlong
    · have hnone : IsNoToken text := fun form htext =>
        ⟨fun h => hread ⟨form, htext, h⟩, fun d hd h => hlong ⟨form, htext, d, hd, h⟩⟩
      exact playToken_of_isNoToken hnone ▸ .refused hnone

/-- A text has one form at most. It is played exactly if it is the text of a form whose duration, if there
is one, has readable digits that are not worth zero, and the form tells what comes of it. Digits that are too
many are an error of their own, and every other text is refused as no token. -/
theorem playToken_grammar (context : LineContext) (state : LineState) (token : String) :
    (∀ form other : Form, form.text = token.toList → other.text = token.toList → form = other) ∧
    (∀ event next, playToken context state token.toList = .ok (event, next) ↔
      ∃ form : Form, form.text = token.toList ∧ form.IsReadable ∧ event = form.event? context state ∧
        next = { state with octave := form.octaveAfter state.octave }) ∧
    (∀ count, playToken context state token.toList = .error (.longNumeral count) ↔
      ∃ form : Form, form.text = token.toList ∧ ∃ d ∈ form.figures?, d.IsLong ∧ d.digits.length = count) ∧
    (playToken context state token.toList = .error (.unparseableToken token none none) ↔
      IsNoToken token.toList) := by
  have hplayed := played context state token.toList
  refine ⟨fun form other h h' => Form.text_injective (h.trans h'.symm), fun event next => ⟨fun hok => ?_, ?_⟩,
    fun count => ⟨fun herror => ?_, ?_⟩, ⟨fun herror => ?_, fun hnone => ?_⟩⟩
  · rw [hok] at hplayed
    cases hplayed with
    | read htext hread => exact ⟨_, htext, hread, rfl, rfl⟩
  · rintro ⟨form, htext, hread, rfl, rfl⟩
    rw [← htext, playToken_of_readable hread]
  · rw [herror] at hplayed
    cases hplayed with
    | long htext hd hlong => exact ⟨_, htext, _, hd, hlong, rfl⟩
  · rintro ⟨form, htext, d, hd, hlong, rfl⟩
    rw [← htext, playToken_of_long hd hlong]
  · generalize hresult : playToken context state token.toList = result at hplayed
    cases hplayed with
    | read _ _ => cases hresult.symm.trans herror
    | long _ _ _ => cases hresult.symm.trans herror
    | refused hnone => exact hnone
  · rw [playToken_of_isNoToken hnone, String.ofList_toList]

end LineScore
