import LineScore.Proofs.Edits
import LineScore.Proofs.Grammar
import LineScore.Proofs.Words

/-! Canonical lines. A note or a rest is written so that its text tells all of it: its duration with a colon,
its accidental even if it is none, its octave as a shift from the one a line starts in, and its articulation.
Such a line is read back under every key, every articulation and every default duration of the line. What is
read from any line can be written, so every line has a canonical one. -/

namespace LineScore

open Token

/-- Whether a duration can be written down and read again. -/
structure Duration.IsWritable (d : Duration) : Prop where
  denominator_pos : 0 < d.denominator
  short : (toString d.denominator).length ≤ Text.maxDigits
  dots_nonneg : 0 ≤ d.dots

namespace Event

/-- Whether an event is a note or a rest whose duration can be written. -/
def IsWritable : Event → Prop
  | .note n => n.duration.IsWritable
  | .rest d => d.IsWritable
  | .measureRest _ _ => False

/-- The canonical text of a note or a rest. Rests of measures have none. -/
def written? : Event → Option String
  | .note n =>
      some (n.duration.text ++ ":" ++ String.ofList (n.letter.toChar :: accidentalSign n.accidental ::
        (shiftSigns (n.octave - 4) ++ (accentSigns n.accented ++ [markSign n.articulation]))))
  | .rest d => some (d.text ++ ":&")
  | .measureRest _ _ => none

end Event

/-- The canonical text of events. -/
def writtenLine (events : List Event) : String :=
  " ".intercalate (events.filterMap Event.written?)

namespace Token

theorem Figures.noBlank (d : Figures) : ∀ c ∈ d.text, Text.isBlank c = false := by
  refine List.forall_mem_append.mpr ⟨fun c hc => Text.isBlank_of_isDigit (d.isDigit_of_mem c hc), ?_⟩
  refine List.forall_mem_append.mpr ⟨fun c hc => ?_, ?_⟩
  · rw [List.eq_of_mem_replicate hc]
    decide
  · cases d.colon <;> exact Text.noBlank_of_all (by decide)

theorem Body.noBlank (body : Body) : ∀ c ∈ body.text, Text.isBlank c = false := by
  cases body with
  | rest => exact Text.noBlank_of_all (by decide)
  | note letter accidental shift accented mark =>
      have hletter : Text.isBlank letter.toChar = false := by cases letter <;> decide
      have haccidental : ∀ c ∈ (accidental.map accidentalSign).toList, Text.isBlank c = false := by
        rcases accidental with _ | _ | _ | _ <;> exact Text.noBlank_of_all (by decide)
      have hshift : ∀ c ∈ shiftSigns shift, Text.isBlank c = false := by
        intro c hc
        cases shift with
        | ofNat n =>
            rw [List.eq_of_mem_replicate hc]
            decide
        | negSucc n =>
            rw [List.eq_of_mem_replicate hc]
            decide
      have haccent : ∀ c ∈ accentSigns accented, Text.isBlank c = false := by
        cases accented <;> exact Text.noBlank_of_all (by decide)
      have hmark : ∀ c ∈ (mark.map markSign).toList, Text.isBlank c = false := by
        rcases mark with _ | _ | _ <;> exact Text.noBlank_of_all (by decide)
      exact List.forall_mem_cons.mpr ⟨hletter, List.forall_mem_append.mpr ⟨haccidental,
        List.forall_mem_append.mpr ⟨hshift, List.forall_mem_append.mpr ⟨haccent, hmark⟩⟩⟩⟩

/-- The text of a form is one word. -/
theorem Form.isWord_text (form : Form) : Text.IsWord form.text := by
  cases form with
  | octaveUp => exact ⟨List.cons_ne_nil _ _, Text.noBlank_of_all (by decide)⟩
  | octaveDown => exact ⟨List.cons_ne_nil _ _, Text.noBlank_of_all (by decide)⟩
  | event figures body =>
      refine ⟨?_, List.forall_mem_append.mpr ⟨?_, body.noBlank⟩⟩
      · obtain ⟨c, rest, hbody, -⟩ := body.exists_text_eq
        simp [text, hbody]
      · cases figures with
        | none => exact fun c hc => absurd hc List.not_mem_nil
        | some d => exact d.noBlank

end Token

theorem toList_toString_natCast (n : Nat) : (toString (n : Int)).toList = Nat.toDigits 10 n :=
  Text.toList_toString n

theorem length_toString_natCast (n : Nat) : (toString (n : Int)).length = (Nat.toDigits 10 n).length := by
  rw [← toList_toString_natCast, String.length_toList]

/-- A duration is written with figures that stand for it. -/
theorem Duration.IsWritable.exists_figures {d : Duration} (h : d.IsWritable) :
    ∃ f : Figures, f.text = d.text.toList ++ [':'] ∧ f.IsReadable ∧ f.duration = d := by
  obtain ⟨denominator, dots⟩ := d
  obtain ⟨hpos, hshort, hdots⟩ := h
  obtain ⟨n, rfl⟩ := Int.eq_ofNat_of_zero_le (Int.le_of_lt hpos)
  obtain ⟨k, rfl⟩ := Int.eq_ofNat_of_zero_le hdots
  rw [length_toString_natCast] at hshort
  dsimp only at hpos
  refine ⟨⟨⟨Nat.toDigits 10 n, k⟩, true, Nat.toDigits_ne_nil, fun _ => Text.isDigit_of_mem_toDigits⟩,
    ?_, ⟨hshort, ?_⟩, ?_⟩
  · rw [Duration.text, String.toList_append, toList_toString_natCast, String.toList_ofList, Int.toNat_natCast,
      List.append_assoc]
    rfl
  · rw [Text.numeral_toDigits]
    omega
  · rw [Figures.duration, Text.numeral_toDigits]

/-- What figures stand for can be written. -/
theorem Token.Figures.IsReadable.isWritable {f : Figures} (h : f.IsReadable) : f.duration.IsWritable where
  denominator_pos := Int.natCast_pos.mpr (Nat.pos_of_ne_zero h.nonzero)
  short := by
    have hfew : Text.numeral f.digits < 10 ^ Text.maxDigits :=
      lt_of_lt_of_le (Text.numeral_lt f.digits) (Nat.pow_le_pow_right (by decide) h.short)
    rw [Figures.duration, length_toString_natCast, Nat.length_toDigits_le_iff (by decide) (by decide)]
    exact hfew
  dots_nonneg := Int.natCast_nonneg _

/-- A note or a rest is written as a form that tells it in every line. -/
theorem Event.IsWritable.exists_form {e : Event} (h : e.IsWritable) :
    ∃ (text : String) (form : Form), e.written? = some text ∧ form.text = text.toList ∧ form.IsReadable ∧
      ∀ (context : LineContext) (default : Duration), form.event? context { default } = some e ∧
        form.octaveAfter 4 = 4 := by
  cases e with
  | note n =>
      obtain ⟨duration, letter, accidental, octave, accented, articulation⟩ := n
      obtain ⟨f, htext, hread, hduration⟩ := Duration.IsWritable.exists_figures h
      refine ⟨_, .event (some f) (.note letter (some accidental) (octave - 4) accented (some articulation)), rfl,
        ?_, fun d hd => Option.some.inj hd ▸ hread, fun context default => ⟨?_, rfl⟩⟩
      · simp [Form.text, figuresText, htext, Body.text]
      · have hoctave : (4 : Int) + (octave - 4) = octave := by omega
        cases articulation <;> simp [Form.event?, hduration, hoctave]
  | rest d =>
      obtain ⟨f, htext, hread, hduration⟩ := Duration.IsWritable.exists_figures h
      refine ⟨_, .event (some f) .rest, rfl, ?_, fun d hd => Option.some.inj hd ▸ hread,
        fun context default => ⟨?_, rfl⟩⟩
      · simp [Form.text, figuresText, htext, Body.text]
      · simp [Form.event?, hduration]
  | measureRest measures meter => cases h

/-- The words of canonical events are read one by one. -/
theorem playTokens_written {events : List Event} (hwritable : ∀ e ∈ events, e.IsWritable)
    (context : LineContext) (default : Duration) :
    playTokens context { default } ((events.filterMap Event.written?).map String.toList) = .ok events := by
  induction events with
  | nil => rfl
  | cons e events ih =>
      obtain ⟨he, hevents⟩ := List.forall_mem_cons.mp hwritable
      obtain ⟨text, form, hwritten, htext, hread, htells⟩ := he.exists_form
      obtain ⟨hevent, hoctave⟩ := htells context default
      rw [List.filterMap_cons_some hwritten, List.map_cons, playTokens_cons, ← htext,
        playToken_of_readable hread, hevent]
      dsimp only
      rw [hoctave, ih hevents]
      rfl

theorem isWord_written {events : List Event} (hwritable : ∀ e ∈ events, e.IsWritable) :
    ∀ text ∈ (events.filterMap Event.written?).map String.toList, Text.IsWord text := by
  intro text htext
  obtain ⟨written, hwritten, rfl⟩ := List.mem_map.mp htext
  obtain ⟨e, he, hsome⟩ := List.mem_filterMap.mp hwritten
  obtain ⟨text, form, htext, hform, -, -⟩ := (hwritable e he).exists_form
  obtain rfl := Option.some.inj (hsome.symm.trans htext)
  rw [← hform]
  exact form.isWord_text

/-- The event of a readable form can be written wherever the duration of the line can. -/
theorem Token.Form.IsReadable.event?_isWritable {form : Form} (h : form.IsReadable) (context : LineContext)
    {state : LineState} (hdefault : state.default.IsWritable) :
    ∀ e ∈ form.event? context state, e.IsWritable := by
  have hduration : (form.figures?.elim state.default Figures.duration).IsWritable := by
    cases hfigures : form.figures? with
    | none => exact hdefault
    | some d => exact (h d hfigures).isWritable
  intro e he
  cases form with
  | octaveUp => cases he
  | octaveDown => cases he
  | event figures body =>
      cases body with
      | rest =>
          obtain rfl := Option.some.inj he
          exact hduration
      | note letter accidental shift accented mark =>
          obtain rfl := Option.some.inj he
          exact hduration

/-- What is read from a line can be written. -/
theorem playTokens_isWritable (context : LineContext) (texts : List (List Char)) {state : LineState}
    (hdefault : state.default.IsWritable) {events : List Event}
    (h : playTokens context state texts = .ok events) : ∀ e ∈ events, e.IsWritable := by
  induction texts generalizing state events with
  | nil =>
      cases h
      exact fun e he => absurd he List.not_mem_nil
  | cons text rest ih =>
      rw [playTokens_cons] at h
      have hplayed := played context state text
      generalize playToken context state text = result at hplayed h
      cases hplayed with
      | long _ _ _ => cases h
      | refused _ => cases h
      | @read form _ hread =>
          obtain ⟨others, hothers, rfl⟩ := exists_of_map_eq_ok h
          have hnext : (LineState.mk state.default (form.octaveAfter state.octave)).default.IsWritable := hdefault
          refine List.forall_mem_append.mpr ⟨fun e he => ?_, ih hnext hothers⟩
          exact hread.event?_isWritable context hdefault e (Option.mem_toList.mp he)

theorem playLine_writtenLine (context : LineContext) (default : Duration) {events : List Event}
    (hwritable : ∀ e ∈ events, e.IsWritable) : playLine context default (writtenLine events) = .ok events := by
  rw [playLine, writtenLine, String.toList_intercalate]
  change playTokens context { default } (Text.words ([' '].intercalate _)) = _
  rw [Text.words_intercalate (isWord_written hwritable), playTokens_written hwritable]

/-- Notes and rests whose durations can be written are read back from their canonical text, whatever the key,
the articulation and the default duration of the line. What any line is read as, if its default duration can be
written, has such a text, and it is read as the same. -/
theorem playLine_canonical :
    (∀ events : List Event, (∀ e ∈ events, e.IsWritable) → ∀ context default,
      playLine context default (writtenLine events) = .ok events) ∧
    ∀ context default text events, default.IsWritable → playLine context default text = .ok events →
      (∀ e ∈ events, e.IsWritable) ∧ ∀ context default, playLine context default (writtenLine events) = .ok events := by
  refine ⟨fun events hwritable context default => playLine_writtenLine context default hwritable, ?_⟩
  intro context default text events hdefault hline
  have hwritable := playTokens_isWritable context _ hdefault hline
  exact ⟨hwritable, fun context default => playLine_writtenLine context default hwritable⟩

example : writtenLine [.note ⟨⟨4, 1⟩, .c, .sharp, 5, true, .staccato⟩, .rest ⟨8, 0⟩] = "4.:c#^>- 8:&" := by
  decide +kernel

end LineScore
