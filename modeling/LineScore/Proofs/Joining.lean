import LineScore.Proofs.Edits
import LineScore.Proofs.Grammar
import LineScore.Proofs.Words

/-! Lines that are joined. A line followed by another one is read as the first is, and then as the second is
with every octave raised by the octave steps of the first; it fails where the first fails, and otherwise where
the second does. So a note is in the octave that a line starts in, raised by the octave steps before it and by
its own shift, and its pitch is linear in its octave. -/

namespace LineScore

open Token

/-- The octave steps among tokens: those upward less those downward. -/
def netSteps (texts : List (List Char)) : Int :=
  (texts.count ['+'] : Int) - texts.count ['-']

/-- The shift signs in a token: those upward less those downward. -/
def ownShift (text : List Char) : Int :=
  (text.count '^' : Int) - text.count 'v'

def isStep (text : List Char) : Bool :=
  text = ['+'] || text = ['-']

/-- The same note some octaves higher. -/
def Note.raise (steps : Int) (n : Note) : Note :=
  { n with octave := n.octave + steps }

def Event.raise (steps : Int) : Event → Event
  | .note n => .note (n.raise steps)
  | e => e

/-- The state of a line some octaves higher. -/
def LineState.raise (steps : Int) (state : LineState) : LineState :=
  { state with octave := state.octave + steps }

theorem LineState.raise_raise (state : LineState) (steps more : Int) :
    (state.raise steps).raise more = state.raise (steps + more) := by
  simp only [raise, Int.add_assoc]

theorem LineState.raise_zero (state : LineState) : state.raise 0 = state := by
  simp only [raise, Int.add_zero]

theorem netSteps_append (texts others : List (List Char)) :
    netSteps (texts ++ others) = netSteps texts + netSteps others := by
  simp only [netSteps, List.count_append, Nat.cast_add]
  omega

theorem netSteps_cons (text : List Char) (texts : List (List Char)) :
    netSteps (text :: texts) = netSteps [text] + netSteps texts :=
  netSteps_append [text] texts

section Shift

theorem ownShift_append (text other : List Char) : ownShift (text ++ other) = ownShift text + ownShift other := by
  simp only [ownShift, List.count_append, Nat.cast_add]
  omega

theorem ownShift_of_notMem {text : List Char} (hup : '^' ∉ text) (hdown : 'v' ∉ text) : ownShift text = 0 := by
  rw [ownShift, List.count_eq_zero_of_not_mem hup, List.count_eq_zero_of_not_mem hdown]
  rfl

theorem ownShift_shiftSigns (shift : Int) : ownShift (shiftSigns shift) = shift := by
  cases shift with
  | ofNat n => simp [ownShift, shiftSigns, List.count_replicate]
  | negSucc n =>
      simp [ownShift, shiftSigns, List.count_replicate]
      omega

theorem Token.Figures.ownShift_text (d : Figures) : ownShift d.text = 0 :=
  ownShift_of_notMem (d.notMem_text (by decide) (by decide) (by decide))
    (d.notMem_text (by decide) (by decide) (by decide))

/-- The shift signs in the text of a note are those of its shift. -/
theorem ownShift_text (figures : Option Figures) (letter : Letter) (accidental : Option Accidental) (shift : Int)
    (accented : Bool) (mark : Option Articulation) :
    ownShift (Form.event figures (.note letter accidental shift accented mark)).text = shift := by
  have hfigures : ownShift (figuresText figures) = 0 := by
    cases figures with
    | none => rfl
    | some d => exact d.ownShift_text
  have hletter : ownShift [letter.toChar] = 0 := by cases letter <;> decide
  have haccidental : ownShift (accidental.map accidentalSign).toList = 0 := by
    rcases accidental with _ | _ | _ | _ <;> decide
  have haccent : ownShift (accentSigns accented) = 0 := by cases accented <;> decide
  have hmark : ownShift (mark.map markSign).toList = 0 := by rcases mark with _ | _ | _ <;> decide
  rw [Form.text, Body.text, ← List.singleton_append]
  simp only [ownShift_append, hfigures, hletter, haccidental, ownShift_shiftSigns, haccent, hmark]
  omega

end Shift

section Tokens

variable {context : LineContext} {state : LineState}

/-- Reading a token some octaves higher makes no other difference. -/
theorem playToken_raise (context : LineContext) (state : LineState) (steps : Int) (text : List Char) :
    playToken context (state.raise steps) text =
      (playToken context state text).map fun played => (played.1.map (Event.raise steps), played.2.raise steps) := by
  rw [playToken, playToken]
  cases Token.read text with
  | error e => rfl
  | ok token =>
      cases token with
      | rest duration => rfl
      | octaveUp =>
          simp only [Except.map, Token.event?, Token.next, LineState.raise, Int.add_right_comm]
          rfl
      | octaveDown =>
          simp only [Except.map, Token.event?, Token.next, LineState.raise, Int.sub_eq_add_neg, Int.add_right_comm]
          rfl
      | note n =>
          simp only [Except.map, Token.event?, Token.next, WrittenNote.resolve, LineState.raise,
            Option.map_some, Event.raise, Note.raise, Int.add_right_comm]

theorem playTokens_raise (context : LineContext) (state : LineState) (steps : Int) (texts : List (List Char)) :
    playTokens context (state.raise steps) texts =
      (playTokens context state texts).map (List.map (Event.raise steps)) := by
  induction texts generalizing state with
  | nil => rfl
  | cons text rest ih =>
      rw [playTokens_cons, playTokens_cons, playToken_raise]
      cases playToken context state text with
      | error e => rfl
      | ok played =>
          obtain ⟨event, next⟩ := played
          simp only [Except.map]
          rw [ih]
          cases playTokens context next rest with
          | error e => rfl
          | ok events => cases event <;> rfl

/-- What a token does to a line: it steps an octave and adds nothing, or it stays and adds an event. -/
theorem playToken_step {text : List Char} {event : Option Event} {next : LineState}
    (h : playToken context state text = .ok (event, next)) :
    next = state.raise (netSteps [text]) ∧ event.isNone = isStep text := by
  have hplayed := played context state text
  rw [h] at hplayed
  cases hplayed with
  | @read form htext _ =>
      subst htext
      cases form with
      | octaveUp => exact ⟨rfl, rfl⟩
      | octaveDown => exact ⟨rfl, rfl⟩
      | event figures body =>
          have hup : (Form.event figures body).text ≠ ['+'] := Form.text_ne_of_scanBody? (by decide)
          have hdown : (Form.event figures body).text ≠ ['-'] := Form.text_ne_of_scanBody? (by decide)
          have hnet : netSteps [(Form.event figures body).text] = 0 := by
            simp [netSteps, hup, hdown]
          refine ⟨by rw [hnet, LineState.raise_zero]; rfl, ?_⟩
          cases body <;> simp [Form.event?, isStep, hup, hdown]

/-- The octave of a note is the line's, raised by its own shift. -/
theorem octave_of_playToken {text : List Char} {n : Note} {next : LineState}
    (h : playToken context state text = .ok (some (.note n), next)) :
    n.octave = state.octave + ownShift text := by
  have hplayed := played context state text
  generalize hresult : playToken context state text = result at hplayed
  cases hplayed with
  | long _ _ _ => cases hresult.symm.trans h
  | refused _ => cases hresult.symm.trans h
  | @read form htext _ =>
      obtain ⟨hevent, -⟩ := Prod.mk.inj (Except.ok.inj (hresult.symm.trans h))
      cases form with
      | octaveUp => cases hevent
      | octaveDown => cases hevent
      | event figures body =>
          cases body with
          | rest => cases hevent
          | note letter accidental shift accented mark =>
              obtain rfl := Event.note.inj (Option.some.inj hevent)
              rw [← htext, ownShift_text]

end Tokens

section Lines

variable {context : LineContext}

/-- Tokens after others are read in the octave that the others leave. -/
theorem playTokens_append (state : LineState) (texts others : List (List Char)) :
    playTokens context state (texts ++ others) =
      match playTokens context state texts with
      | .error e => .error e
      | .ok events => (playTokens context (state.raise (netSteps texts)) others).map (events ++ ·) := by
  induction texts generalizing state with
  | nil =>
      rw [List.nil_append, playTokens, show netSteps [] = 0 from rfl, LineState.raise_zero]
      cases playTokens context state others <;> rfl
  | cons text rest ih =>
      rw [List.cons_append, playTokens_cons, playTokens_cons]
      cases hplay : playToken context state text with
      | error e => rfl
      | ok result =>
          obtain ⟨event, next⟩ := result
          obtain ⟨rfl, -⟩ := playToken_step hplay
          dsimp only
          rw [ih, LineState.raise_raise, ← netSteps_cons]
          cases playTokens context (state.raise (netSteps [text])) rest with
          | error e => rfl
          | ok events =>
              dsimp only [Except.map]
              cases playTokens context (state.raise (netSteps (text :: rest))) others with
              | error e => rfl
              | ok more => simp

/-- Whether reading tokens stops at a place: the token there cannot be read, and all before it can. -/
structure StopsAt (texts : List (List Char)) (place : Nat) (e : Error) : Prop where
  unreadable : ∃ text, texts[place]? = some text ∧ Token.read text = .error e
  readable : ∀ k < place, ∀ text, texts[k]? = some text → ∃ token, Token.read text = .ok token

theorem stopsAt_cons_zero {text : List Char} {rest : List (List Char)} {e : Error} :
    StopsAt (text :: rest) 0 e ↔ Token.read text = .error e := by
  constructor
  · rintro ⟨⟨_, hat, hread⟩, -⟩
    obtain rfl := Option.some.inj hat
    exact hread
  · exact fun hread => ⟨⟨text, rfl, hread⟩, fun k hk => absurd hk (Nat.not_lt_zero k)⟩

theorem stopsAt_cons_succ {text : List Char} {rest : List (List Char)} {place : Nat} {e : Error} :
    StopsAt (text :: rest) (place + 1) e ↔ (∃ token, Token.read text = .ok token) ∧ StopsAt rest place e := by
  constructor
  · rintro ⟨hat, hbefore⟩
    exact ⟨hbefore 0 (Nat.succ_pos place) text rfl, hat, fun k hk => hbefore (k + 1) (Nat.succ_lt_succ hk)⟩
  · rintro ⟨hfirst, hat, hbefore⟩
    refine ⟨hat, fun k hk other hother => ?_⟩
    cases k with
    | zero =>
        obtain rfl := Option.some.inj hother
        exact hfirst
    | succ k => exact hbefore k (Nat.lt_of_succ_lt_succ hk) other hother

/-- Tokens fail with the error of the first one that cannot be read. -/
theorem playTokens_error_iff (state : LineState) (texts : List (List Char)) (e : Error) :
    playTokens context state texts = .error e ↔ ∃ place, StopsAt texts place e := by
  induction texts generalizing state with
  | nil =>
      constructor
      · intro h
        cases h
      · rintro ⟨place, ⟨text, hat, -⟩, -⟩
        cases hat
  | cons text rest ih =>
      rw [playTokens_cons, playToken]
      cases hread : Token.read text with
      | error other =>
          constructor
          · intro h
            cases h
            exact ⟨0, stopsAt_cons_zero.mpr hread⟩
          · rintro ⟨_ | place, hstops⟩
            · cases hread.symm.trans (stopsAt_cons_zero.mp hstops)
              rfl
            · obtain ⟨⟨token, htoken⟩, -⟩ := stopsAt_cons_succ.mp hstops
              cases hread.symm.trans htoken
      | ok token =>
          have hmap : ∀ (result : Except Error (List Event)) (events : List Event),
              result.map (events ++ ·) = .error e ↔ result = .error e := by
            intro result events
            cases result <;> simp [Except.map]
          refine (hmap _ _).trans ((ih _).trans ⟨?_, ?_⟩)
          · rintro ⟨place, hstops⟩
            exact ⟨place + 1, stopsAt_cons_succ.mpr ⟨⟨token, hread⟩, hstops⟩⟩
          · rintro ⟨_ | place, hstops⟩
            · cases hread.symm.trans (stopsAt_cons_zero.mp hstops)
            · exact ⟨place, (stopsAt_cons_succ.mp hstops).2⟩

theorem playLine_error_iff (default : Duration) (text : String) (e : Error) :
    playLine context default text = .error e ↔ ∃ place, StopsAt (Text.words text.toList) place e :=
  playTokens_error_iff _ _ e

theorem exists_read_of_playTokens {state : LineState} {texts : List (List Char)} {events : List Event}
    (h : playTokens context state texts = .ok events) : ∀ text ∈ texts, ∃ token, Token.read text = .ok token := by
  induction texts generalizing state events with
  | nil => exact fun text htext => absurd htext List.not_mem_nil
  | cons text rest ih =>
      rw [playTokens_cons, playToken] at h
      cases hread : Token.read text with
      | error e =>
          rw [hread] at h
          cases h
      | ok token =>
          rw [hread] at h
          obtain ⟨others, hothers, -⟩ := exists_of_map_eq_ok h
          exact List.forall_mem_cons.mpr ⟨⟨token, hread⟩, ih hothers⟩

/-- Behind tokens that can be read, reading stops where it would stop without them. -/
theorem stopsAt_append_right {texts : List (List Char)}
    (hread : ∀ text ∈ texts, ∃ token, Token.read text = .ok token) (others : List (List Char)) (place : Nat)
    (e : Error) : StopsAt (texts ++ others) (texts.length + place) e ↔ StopsAt others place e := by
  induction texts with
  | nil => rw [List.nil_append, List.length_nil, Nat.zero_add]
  | cons text texts ih =>
      obtain ⟨htext, htexts⟩ := List.forall_mem_cons.mp hread
      rw [List.cons_append, List.length_cons, Nat.add_right_comm, stopsAt_cons_succ, ih htexts]
      exact and_iff_right htext

theorem StopsAt.append {texts : List (List Char)} {place : Nat} {e : Error} (h : StopsAt texts place e)
    (others : List (List Char)) : StopsAt (texts ++ others) place e := by
  obtain ⟨⟨text, hat, hread⟩, hbefore⟩ := h
  have hplace : place < texts.length := (List.getElem?_eq_some_iff.mp hat).1
  refine ⟨⟨text, by rw [List.getElem?_append_left hplace, hat], hread⟩, fun k hk other hother => ?_⟩
  rw [List.getElem?_append_left (hk.trans hplace)] at hother
  exact hbefore k hk other hother

/-- Every event comes of one token, in the octave that the tokens before it leave. -/
theorem exists_word_of_event {state : LineState} {texts : List (List Char)} {events before after : List Event}
    {e : Event} (h : playTokens context state texts = .ok events) (hsplit : events = before ++ e :: after) :
    ∃ front word rest next, texts = front ++ word :: rest ∧
      front.countP (fun text => !isStep text) = before.length ∧
      playToken context (state.raise (netSteps front)) word = .ok (some e, next) := by
  induction texts generalizing state events before with
  | nil =>
      cases h
      simp at hsplit
  | cons text rest ih =>
      rw [playTokens_cons] at h
      cases hplay : playToken context state text with
      | error other =>
          rw [hplay] at h
          cases h
      | ok result =>
          obtain ⟨event, next⟩ := result
          rw [hplay] at h
          obtain ⟨others, hothers, hevents⟩ := exists_of_map_eq_ok h
          obtain ⟨rfl, hstep⟩ := playToken_step hplay
          rw [hsplit] at hevents
          have hlater : ∀ front, others = front ++ e :: after → ∃ passed word tail next,
              rest = passed ++ word :: tail ∧ passed.countP (fun text => !isStep text) = front.length ∧
              playToken context (state.raise (netSteps (text :: passed))) word = .ok (some e, next) := by
            intro front hfront
            obtain ⟨passed, word, tail, next, rfl, hcount, hword⟩ := ih hothers hfront
            rw [LineState.raise_raise, ← netSteps_cons] at hword
            exact ⟨passed, word, tail, next, rfl, hcount, hword⟩
          cases event with
          | none =>
              obtain ⟨passed, word, tail, next, rfl, hcount, hword⟩ := hlater before hevents
              exact ⟨text :: passed, word, tail, next, rfl, by simp [← hstep, hcount], hword⟩
          | some first =>
              cases before with
              | nil =>
                  obtain ⟨rfl, -⟩ := List.cons.inj hevents
                  rw [← LineState.raise_zero state] at hplay
                  exact ⟨[], text, rest, _, rfl, rfl, hplay⟩
              | cons other before =>
                  obtain ⟨passed, word, tail, next, rfl, hcount, hword⟩ := hlater before (List.cons.inj hevents).2
                  exact ⟨text :: passed, word, tail, next, rfl, by simp [← hstep, hcount], hword⟩

end Lines

section Pitches

/-- What a spelling takes off the semitone it carries into the octave. -/
theorem semitones_spell (letter : Letter) (accidental : Accidental) (octave : Int) :
    12 * (spell letter accidental octave).2 + (spell letter accidental octave).1 =
      12 * octave + letter.semitone + accidental.offset := by
  rw [spell]
  split
  · simp only [octaveSemitones]
    omega
  · split
    · simp only [octaveSemitones]
      omega
    · omega

theorem Note.pitch_eq (n : Note) (mapping : PitchMapping) :
    n.pitch mapping = mapping.referencePitch + 12 * (n.octave - mapping.referenceOctave) + n.letter.semitone +
      n.accidental.offset := by
  have hspell := semitones_spell n.letter n.accidental n.octave
  rw [pitch, PitchMapping.pitch, spelled, octaveSemitones]
  omega

theorem Note.pitch_raise (n : Note) (mapping : PitchMapping) (steps : Int) :
    (n.raise steps).pitch mapping = n.pitch mapping + 12 * steps := by
  rw [pitch_eq, pitch_eq, raise]
  dsimp only
  omega

end Pitches

theorem words_joined (a b : String) :
    Text.words (a ++ " " ++ b).toList = Text.words a.toList ++ Text.words b.toList := by
  rw [String.toList_append, String.toList_append, List.append_assoc]
  exact Text.words_append_blank (by decide) a.toList b.toList

/-- A line that goes on after a blank fails where its first part fails, with the same error. Otherwise it fails
where its second part fails, or it gives the events of both, those of the second part raised by the octave
steps of the first. Any line fails at its first token that cannot be read. A note that is read is in octave 4
raised by the octave steps before it and by its own shift; its pitch is linear in its octave, so that a note
that is raised sounds 12 higher for each octave. -/
theorem playLine_joined (context : LineContext) (default : Duration) (a b : String) :
    (∀ e, playLine context default a = .error e → playLine context default (a ++ " " ++ b) = .error e ∧
      ∀ place, StopsAt (Text.words a.toList) place e → StopsAt (Text.words (a ++ " " ++ b).toList) place e) ∧
    (∀ events, playLine context default a = .ok events →
      (∀ e, playLine context default (a ++ " " ++ b) = .error e ↔ playLine context default b = .error e) ∧
      (∀ place e, StopsAt (Text.words (a ++ " " ++ b).toList) ((Text.words a.toList).length + place) e ↔
        StopsAt (Text.words b.toList) place e) ∧
      ∀ others, playLine context default b = .ok others → playLine context default (a ++ " " ++ b) =
        .ok (events ++ others.map (Event.raise (netSteps (Text.words a.toList))))) ∧
    (∀ e, playLine context default a = .error e ↔ ∃ place, StopsAt (Text.words a.toList) place e) ∧
    (∀ events before n after, playLine context default a = .ok events → events = before ++ .note n :: after →
      ∃ front word rest next, Text.words a.toList = front ++ word :: rest ∧
        front.countP (fun text => !isStep text) = before.length ∧
        playToken context { default, octave := 4 + netSteps front } word = .ok (some (.note n), next) ∧
        n.octave = 4 + netSteps front + ownShift word) ∧
    ∀ (n : Note) (mapping : PitchMapping),
      n.pitch mapping = mapping.referencePitch + 12 * (n.octave - mapping.referenceOctave) + n.letter.semitone +
        n.accidental.offset ∧
      ∀ steps, (n.raise steps).pitch mapping = n.pitch mapping + 12 * steps := by
  have hjoined : playLine context default (a ++ " " ++ b) =
      match playLine context default a with
      | .error e => (.error e : Except Error (List Event))
      | .ok events => ((playLine context default b).map
          (List.map (Event.raise (netSteps (Text.words a.toList))))).map (events ++ ·) := by
    rw [playLine, words_joined, playTokens_append, playTokens_raise]
    rfl
  refine ⟨fun e herror => ?_, fun events hok => ?_, playLine_error_iff default a,
    fun events before n after hok hsplit => ?_, fun n mapping => ⟨n.pitch_eq mapping, n.pitch_raise mapping⟩⟩
  · rw [hjoined, herror]
    refine ⟨rfl, fun place hstops => ?_⟩
    rw [words_joined]
    exact hstops.append _
  · rw [hjoined, hok, words_joined]
    refine ⟨fun e => ?_, stopsAt_append_right (exists_read_of_playTokens hok) _, fun others hothers => ?_⟩
    · cases playLine context default b <;> simp [Except.map]
    · rw [hothers]
      rfl
  · obtain ⟨front, word, rest, next, hwords, hcount, hword⟩ := exists_word_of_event hok hsplit
    exact ⟨front, word, rest, next, hwords, hcount, hword, octave_of_playToken hword⟩

end LineScore
