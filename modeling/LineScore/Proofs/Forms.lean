import LineScore.Notation.Token
import Mathlib.Data.List.Basic
import Mathlib.Data.List.TakeWhile

/-! The forms of tokens. A form is a token part by part, and its text writes the parts one after the other.
Each part is taken off a text that begins with it, since what follows begins with no sign that the part could
go on with. So a text has one form at most. -/

namespace LineScore

namespace Token

/-- A duration as it stands in a token: digits, at least one, then dots, then a colon or none. -/
structure Figures extends Figure where
  colon : Bool
  digits_ne_nil : digits ≠ []
  isDigit_of_mem : ∀ c ∈ digits, Text.isDigit c = true

/-- What follows the duration in a token. An octave shift upward is positive and one downward negative. -/
inductive Body where
  | rest
  | note (letter : Letter) (accidental : Option Accidental) (shift : Int) (accented : Bool)
      (mark : Option Articulation)

/-- A token part by part. -/
inductive Form where
  | octaveUp
  | octaveDown
  | event (figures : Option Figures) (body : Body)

/-- The sign of an accidental that a note is written with. -/
def accidentalSign : Accidental → Char
  | .natural => 'n' | .sharp => '#' | .flat => 'b'

/-- The signs of an octave shift: a run of one sign for upward, and of another for downward. -/
def shiftSigns : Int → List Char
  | .ofNat n => List.replicate n '^'
  | .negSucc n => List.replicate (n + 1) 'v'

def accentSigns (accented : Bool) : List Char :=
  if accented then ['>'] else []

def markSign : Articulation → Char
  | .legato => '(' | .staccato => '-'

namespace Figures

def text (d : Figures) : List Char :=
  d.digits ++ (List.replicate d.dots '.' ++ if d.colon then [':'] else [])

/-- The duration that figures stand for. -/
def duration (d : Figures) : Duration :=
  ⟨Text.numeral d.digits, d.dots⟩

/-- Whether there are more digits than a number may be read from. -/
def IsLong (d : Figures) : Prop :=
  Text.maxDigits < d.digits.length

/-- Whether figures stand for a duration: their digits can be read and are not worth zero. -/
structure IsReadable (d : Figures) : Prop where
  short : d.digits.length ≤ Text.maxDigits
  nonzero : Text.numeral d.digits ≠ 0

end Figures

/-- The text of a duration that may be absent. -/
def figuresText (figures : Option Figures) : List Char :=
  figures.elim [] Figures.text

namespace Body

def text : Body → List Char
  | .rest => ['&']
  | .note letter accidental shift accented mark =>
      letter.toChar :: ((accidental.map accidentalSign).toList ++
        (shiftSigns shift ++ (accentSigns accented ++ (mark.map markSign).toList)))

/-- The token that a body is by itself. -/
def token : Body → Token
  | .rest => .rest none
  | .note letter accidental shift accented mark => .note ⟨none, letter, accidental, shift, accented, mark⟩

end Body

namespace Form

def text : Form → List Char
  | .octaveUp => ['+']
  | .octaveDown => ['-']
  | .event figures body => figuresText figures ++ body.text

def figures? : Form → Option Figures
  | .event figures _ => figures
  | _ => none

end Form

/-- A run ends where its sign does. -/
theorem run_append {p : Char → Bool} {run rest : List Char} (hrun : ∀ c ∈ run, p c = true)
    (hrest : ∀ c ∈ rest.head?, p c = false) :
    (run ++ rest).takeWhile p = run ∧ (run ++ rest).dropWhile p = rest := by
  rw [List.takeWhile_append_of_pos hrun, List.dropWhile_append_of_pos hrun]
  cases rest with
  | nil => simp
  | cons c rest =>
      have hc : p c = false := hrest c rfl
      simp [hc]

theorem replicate_append (n : Nat) {c : Char} {rest : List Char} (hrest : ∀ d ∈ rest.head?, d ≠ c) :
    (List.replicate n c ++ rest).takeWhile (· = c) = List.replicate n c ∧
      (List.replicate n c ++ rest).dropWhile (· = c) = rest :=
  run_append (fun _ hd => decide_eq_true (List.eq_of_mem_replicate hd)) fun d hd => decide_eq_false (hrest d hd)

theorem takeWhile_eq_replicate (text : List Char) (c : Char) :
    text.takeWhile (· = c) = List.replicate (text.takeWhile (· = c)).length c :=
  List.eq_replicate_of_mem fun d hd => by simpa using List.mem_takeWhile_imp hd

theorem Figures.notMem_text (d : Figures) {c : Char} (hdigit : Text.isDigit c = false) (hdot : c ≠ '.')
    (hcolon : c ≠ ':') : c ∉ d.text := by
  intro hmem
  rcases List.mem_append.mp hmem with hdigits | hrest
  · rw [d.isDigit_of_mem c hdigits] at hdigit
    cases hdigit
  · rcases List.mem_append.mp hrest with hdots | hend
    · exact hdot (List.eq_of_mem_replicate hdots)
    · cases hd : d.colon <;> simp_all

section Parts

/-! Each part of a token is taken off the front of a text that begins with it, unless what follows could go
on with it, and what is taken off is a part of the text. -/

theorem takeFigure_append (figures : Option Figures) {c : Char} {rest : List Char}
    (hdigit : Text.isDigit c = false) (hdot : c ≠ '.') (hcolon : c ≠ ':') :
    takeFigure (figuresText figures ++ c :: rest) = (figures.map Figures.toFigure, c :: rest) := by
  cases figures with
  | none =>
      rw [figuresText, Option.elim_none, List.nil_append, takeFigure,
        List.takeWhile_cons_of_neg (by simp [hdigit])]
      rfl
  | some d =>
      obtain ⟨⟨digits, dots⟩, colon, hne, hdigits⟩ := d
      have htext : figuresText (some ⟨⟨digits, dots⟩, colon, hne, hdigits⟩) ++ c :: rest =
          digits ++ (List.replicate dots '.' ++ ((if colon then [':'] else []) ++ c :: rest)) := by
        simp [figuresText, Figures.text]
      -- no digit follows the digits, and no dot the dots
      have hend : ∀ d ∈ ((if colon then [':'] else []) ++ c :: rest).head?, d ≠ '.' ∧ Text.isDigit d = false := by
        cases colon with
        | true => exact fun d hd => Option.some.inj hd ▸ by decide
        | false => exact fun d hd => Option.some.inj hd ▸ ⟨hdot, hdigit⟩
      obtain ⟨htake, hdrop⟩ := replicate_append dots fun d hd => (hend d hd).1
      have hafter : ∀ d ∈ (List.replicate dots '.' ++ ((if colon then [':'] else []) ++ c :: rest)).head?,
          Text.isDigit d = false := by
        cases dots with
        | zero => exact fun d hd => (hend d hd).2
        | succ n => exact fun d hd => Option.some.inj hd ▸ by decide
      obtain ⟨hdigits, hothers⟩ := run_append hdigits hafter
      obtain ⟨first, others, rfl⟩ := List.exists_cons_of_ne_nil hne
      rw [htext, takeFigure, hdigits, hothers]
      dsimp only
      rw [htake, hdrop, List.length_replicate]
      cases colon with
      | true => rfl
      | false =>
          split
          · next hhead => exact absurd (List.cons.inj hhead).1 hcolon
          · rfl

theorem exists_of_takeFigure (text : List Char) :
    ∃ figures : Option Figures, (takeFigure text).1 = figures.map Figures.toFigure ∧
      text = figuresText figures ++ (takeFigure text).2 := by
  unfold takeFigure
  have hsplit := (List.takeWhile_append_dropWhile (p := Text.isDigit) (l := text)).symm
  have hall : ∀ c ∈ text.takeWhile Text.isDigit, Text.isDigit c = true := fun c hc =>
    List.mem_takeWhile_imp hc
  generalize text.takeWhile Text.isDigit = digits at hsplit hall ⊢
  generalize text.dropWhile Text.isDigit = tail at hsplit ⊢
  cases digits with
  | nil => exact ⟨none, rfl, rfl⟩
  | cons first others =>
      have hdots := (List.takeWhile_append_dropWhile (p := fun c => decide (c = '.')) (l := tail)).symm
      rw [takeWhile_eq_replicate] at hdots
      dsimp only
      split
      · next rest hrest =>
          rw [hrest] at hdots
          refine ⟨some ⟨⟨first :: others, _⟩, true, List.cons_ne_nil _ _, hall⟩, rfl, ?_⟩
          rw [hsplit]
          conv_lhs => rw [hdots]
          simp [figuresText, Figures.text]
      · refine ⟨some ⟨⟨first :: others, _⟩, false, List.cons_ne_nil _ _, hall⟩, rfl, ?_⟩
        rw [hsplit]
        conv_lhs => rw [hdots]
        simp [figuresText, Figures.text]

theorem takeAccidental_append (accidental : Option Accidental) {rest : List Char}
    (hrest : ∀ c ∈ rest.head?, c ≠ '#' ∧ c ≠ 'b' ∧ c ≠ 'n') :
    takeAccidental ((accidental.map accidentalSign).toList ++ rest) = (accidental, rest) := by
  cases accidental with
  | some accidental => cases accidental <;> rfl
  | none =>
      rw [Option.map_none, Option.toList_none, List.nil_append]
      unfold takeAccidental
      split
      · exact absurd rfl (hrest _ rfl).1
      · exact absurd rfl (hrest _ rfl).2.1
      · exact absurd rfl (hrest _ rfl).2.2
      · rfl

theorem of_takeAccidental (text : List Char) :
    text = ((takeAccidental text).1.map accidentalSign).toList ++ (takeAccidental text).2 := by
  unfold takeAccidental
  split <;> rfl

theorem shiftSigns_natCast (n : Nat) : shiftSigns n = List.replicate n '^' := rfl

theorem shiftSigns_neg (n : Nat) : shiftSigns (-n) = List.replicate n 'v' := by
  cases n <;> rfl

theorem takeShift_append (shift : Int) {rest : List Char} (hrest : ∀ c ∈ rest.head?, c ≠ '^' ∧ c ≠ 'v') :
    takeShift (shiftSigns shift ++ rest) = (shift, rest) := by
  have hrun : ∀ n c, c = '^' ∨ c = 'v' → (List.replicate (n + 1) c ++ rest).takeWhile (· = c) =
      List.replicate (n + 1) c ∧ (List.replicate (n + 1) c ++ rest).dropWhile (· = c) = rest := by
    rintro n c (rfl | rfl)
    · exact replicate_append (n + 1) fun c hc => (hrest c hc).1
    · exact replicate_append (n + 1) fun c hc => (hrest c hc).2
  cases shift with
  | ofNat n =>
      cases n with
      | zero =>
          change takeShift rest = (0, rest)
          unfold takeShift
          split
          · exact absurd rfl (hrest _ rfl).1
          · exact absurd rfl (hrest _ rfl).2
          · rfl
      | succ n =>
          obtain ⟨htake, hdrop⟩ := hrun n '^' (Or.inl rfl)
          change ((((List.replicate (n + 1) '^' ++ rest).takeWhile (· = '^')).length : Int),
            (List.replicate (n + 1) '^' ++ rest).dropWhile (· = '^')) = (((n + 1 : Nat) : Int), rest)
          rw [htake, hdrop, List.length_replicate]
  | negSucc n =>
      obtain ⟨htake, hdrop⟩ := hrun n 'v' (Or.inr rfl)
      change (-(((List.replicate (n + 1) 'v' ++ rest).takeWhile (· = 'v')).length : Int),
        (List.replicate (n + 1) 'v' ++ rest).dropWhile (· = 'v')) = (Int.negSucc n, rest)
      rw [htake, hdrop, List.length_replicate]
      rfl

theorem of_takeShift (text : List Char) : text = shiftSigns (takeShift text).1 ++ (takeShift text).2 := by
  unfold takeShift
  split
  · rw [shiftSigns_natCast, ← takeWhile_eq_replicate, List.takeWhile_append_dropWhile]
  · rw [shiftSigns_neg, ← takeWhile_eq_replicate, List.takeWhile_append_dropWhile]
  · rfl

theorem takeAccent_append (accented : Bool) {rest : List Char} (hrest : ∀ c ∈ rest.head?, c ≠ '>') :
    takeAccent (accentSigns accented ++ rest) = (accented, rest) := by
  cases accented with
  | true => rfl
  | false =>
      change takeAccent rest = (false, rest)
      unfold takeAccent
      split
      · exact absurd rfl (hrest _ rfl)
      · rfl

theorem of_takeAccent (text : List Char) : text = accentSigns (takeAccent text).1 ++ (takeAccent text).2 := by
  unfold takeAccent
  split <;> rfl

theorem takeMark_of_text (mark : Option Articulation) :
    takeMark (mark.map markSign).toList = (mark, []) := by
  cases mark with
  | none => rfl
  | some mark => cases mark <;> rfl

theorem of_takeMark (text : List Char) :
    text = ((takeMark text).1.map markSign).toList ++ (takeMark text).2 := by
  unfold takeMark
  split <;> rfl

end Parts

theorem toChar_of_ofChar? {c : Char} {letter : Letter} (h : Letter.ofChar? c = some letter) :
    c = letter.toChar := by
  unfold Letter.ofChar? at h
  split at h <;> cases h <;> rfl

/-- What follows a duration begins with a letter or with the sign of a rest. -/
theorem Body.exists_text_eq (body : Body) :
    ∃ c rest, body.text = c :: rest ∧ Text.isDigit c = false ∧ c ≠ '.' ∧ c ≠ ':' := by
  cases body with
  | rest => exact ⟨'&', [], rfl, by decide, by decide, by decide⟩
  | note letter accidental shift accented mark =>
      exact ⟨letter.toChar, _, rfl, by cases letter <;> decide, by cases letter <;> decide,
        by cases letter <;> decide⟩

theorem scanNote?_text (letter : Letter) (accidental : Option Accidental) (shift : Int) (accented : Bool)
    (mark : Option Articulation) :
    scanNote? (Body.note letter accidental shift accented mark).text =
      some ⟨none, letter, accidental, shift, accented, mark⟩ := by
  -- the signs that may come first after each part
  have hmark : ∀ c ∈ (mark.map markSign).toList.head?, c = '(' ∨ c = '-' := by
    cases mark with
    | none => simp
    | some mark => cases mark <;> simp [markSign]
  have haccent : ∀ c ∈ (accentSigns accented ++ (mark.map markSign).toList).head?, c = '>' ∨ c = '(' ∨ c = '-' := by
    cases accented with
    | true => simp [accentSigns]
    | false => exact fun c hc => Or.inr (hmark c hc)
  have hshift : ∀ c ∈ (shiftSigns shift ++ (accentSigns accented ++ (mark.map markSign).toList)).head?,
      c = '^' ∨ c = 'v' ∨ c = '>' ∨ c = '(' ∨ c = '-' := by
    rcases shift with (_ | n) | n
    · exact fun c hc => Or.inr (Or.inr (haccent c hc))
    · simp [shiftSigns, List.replicate_succ]
    · simp [shiftSigns, List.replicate_succ]
  rw [Body.text, scanNote?, Letter.ofChar?_toChar]
  dsimp only
  rw [takeAccidental_append, takeShift_append, takeAccent_append, takeMark_of_text]
  · rfl
  · intro c hc
    rcases hmark c hc with rfl | rfl <;> decide
  · intro c hc
    rcases haccent c hc with rfl | rfl | rfl <;> decide
  · intro c hc
    rcases hshift c hc with rfl | rfl | rfl | rfl | rfl <;> decide

theorem scanBody?_text (body : Body) : scanBody? body.text = some body.token := by
  cases body with
  | rest => rfl
  | note letter accidental shift accented mark =>
      have hnote := scanNote?_text letter accidental shift accented mark
      unfold scanBody?
      split
      · next hrest =>
          rw [hrest] at hnote
          cases hnote
      · rw [hnote]
        rfl

theorem of_scanNote? {text : List Char} {n : WrittenNote} (h : scanNote? text = some n) :
    text = (Body.note n.letter n.accidental n.shift n.accented n.mark).text ∧ n.duration = none := by
  cases text with
  | nil => cases h
  | cons c tail =>
      rw [scanNote?] at h
      split at h
      · cases h
      · next letter hletter =>
          rcases haccidental : takeAccidental tail with ⟨accidental, afterAccidental⟩
          rcases hshift : takeShift afterAccidental with ⟨shift, afterShift⟩
          rcases haccent : takeAccent afterShift with ⟨accented, afterAccent⟩
          rcases hmark : takeMark afterAccent with ⟨mark, afterMark⟩
          simp only [haccidental, hshift, haccent, hmark] at h
          obtain ⟨hend, hn⟩ := Option.ite_none_right_eq_some.mp h
          obtain rfl := Option.some.inj hn
          have h₁ := of_takeAccidental tail
          have h₂ := of_takeShift afterAccidental
          have h₃ := of_takeAccent afterShift
          have h₄ := of_takeMark afterAccent
          rw [haccidental] at h₁
          rw [hshift] at h₂
          rw [haccent] at h₃
          rw [hmark, List.isEmpty_iff.mp hend, List.append_nil] at h₄
          refine ⟨?_, rfl⟩
          rw [Body.text, toChar_of_ofChar? hletter, h₁, h₂, h₃, h₄]

theorem exists_of_scanBody? {text : List Char} {token : Token} (h : scanBody? text = some token) :
    ∃ body : Body, text = body.text ∧ token = body.token := by
  unfold scanBody? at h
  split at h
  · cases h
    exact ⟨.rest, rfl, rfl⟩
  · obtain ⟨n, hn, rfl⟩ := Option.map_eq_some_iff.mp h
    obtain ⟨htext, hduration⟩ := of_scanNote? hn
    refine ⟨_, htext, ?_⟩
    rw [Body.token, ← hduration]

theorem Body.text_injective : Function.Injective Body.text := by
  intro body other htext
  have htoken : body.token = other.token := by
    rw [← Option.some.injEq, ← scanBody?_text, ← scanBody?_text, htext]
  cases body <;> cases other <;> cases htoken <;> rfl

/-- Two durations that differ in nothing but the colon have different texts. -/
theorem figuresText_injective {figures others : Option Figures}
    (hfigure : figures.map Figures.toFigure = others.map Figures.toFigure)
    (htext : figuresText figures = figuresText others) : figures = others := by
  cases figures with
  | none =>
      cases others with
      | none => rfl
      | some d => cases hfigure
  | some d =>
      cases others with
      | none => cases hfigure
      | some e =>
          obtain ⟨figure, colon, _, _⟩ := d
          obtain ⟨_, other, _, _⟩ := e
          obtain rfl := Option.some.inj hfigure
          have hcolon := List.append_cancel_left (List.append_cancel_left htext)
          cases colon <;> cases other <;> simp at hcolon ⊢

namespace Form

theorem takeFigure_text (figures : Option Figures) (body : Body) :
    takeFigure (Form.event figures body).text = (figures.map Figures.toFigure, body.text) := by
  obtain ⟨c, rest, hbody, hdigit, hdot, hcolon⟩ := body.exists_text_eq
  rw [text, hbody]
  exact takeFigure_append figures hdigit hdot hcolon

/-- An octave step is no note and no rest. -/
theorem text_ne_of_scanBody? {figures : Option Figures} {body : Body} {sign : List Char}
    (hnone : scanBody? (takeFigure sign).2 = none) : (Form.event figures body).text ≠ sign := by
  rintro rfl
  rw [takeFigure_text, scanBody?_text] at hnone
  cases hnone

/-- A text is that of one form at most. -/
theorem text_injective : Function.Injective Form.text := by
  have hstep : ∀ figures body, ∀ sign ∈ [['+'], ['-']], (Form.event figures body).text ≠ sign := by
    intro figures body sign hsign
    have hnone : ∀ sign ∈ [['+'], ['-']], scanBody? (takeFigure sign).2 = none := by decide
    exact text_ne_of_scanBody? (hnone sign hsign)
  intro form other htext
  cases form with
  | octaveUp =>
      cases other with
      | octaveUp => rfl
      | octaveDown => cases htext
      | event figures body => exact absurd htext.symm (hstep figures body _ (by simp [text]))
  | octaveDown =>
      cases other with
      | octaveUp => cases htext
      | octaveDown => rfl
      | event figures body => exact absurd htext.symm (hstep figures body _ (by simp [text]))
  | event figures body =>
      cases other with
      | octaveUp => exact absurd htext (hstep figures body _ (by simp [text]))
      | octaveDown => exact absurd htext (hstep figures body _ (by simp [text]))
      | event others ending =>
          have hparts := congrArg takeFigure htext
          rw [takeFigure_text, takeFigure_text, Prod.mk.injEq] at hparts
          obtain rfl := Body.text_injective hparts.2
          obtain rfl := figuresText_injective hparts.1 (List.append_cancel_right htext)
          rfl

end Form

end Token

end LineScore
