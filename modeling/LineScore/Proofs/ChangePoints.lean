import LineScore.Song
import Mathlib.Algebra.Order.Ring.Rat
import Mathlib.Data.List.Chain
import Mathlib.Tactic.Linarith

/-! Change points of values along spans that lie end to end. They are read off from the front, span by
span; a list that notes only new values at its end, as a song does while it grows, holds the same. -/

namespace LineScore

variable {α : Type}

/-- A list of changes: they begin at the start and come one after the other, each to a new value. -/
structure IsChangeList (changes : List (Rat × α)) : Prop where
  starts : ∀ c ∈ changes.head?, c.1 = 0
  rises : (changes.map Prod.fst).Pairwise (· < ·)
  differs : (changes.map Prod.snd).IsChain (· ≠ ·)

/-- The value in force at the end of spans. -/
theorem getLast?_cons_or (span : Rat × α) (spans : List (Rat × α)) (previous : Option α) :
    ((span :: spans).getLast?.map Prod.snd).or previous =
      (spans.getLast?.map Prod.snd).or (some span.2) := by
  rw [List.getLast?_cons]
  cases spans.getLast? <;> rfl

variable [DecidableEq α]

/-- Where spans take another value than the span before them had: the offset of each such span, counted
from `offset`, and its value. -/
def changesFrom (offset : Rat) (previous : Option α) : List (Rat × α) → List (Rat × α)
  | [] => []
  | (length, value) :: rest =>
      if previous = some value then changesFrom (offset + length) previous rest
      else (offset, value) :: changesFrom (offset + length) (some value) rest

/-- The change points of spans that lie end to end. The first span is always one. -/
def changePoints (spans : List (Rat × α)) : List (Rat × α) :=
  changesFrom 0 none spans

theorem changesFrom_same (offset length : Rat) (value : α) (rest : List (Rat × α)) :
    changesFrom offset (some value) ((length, value) :: rest) =
      changesFrom (offset + length) (some value) rest :=
  if_pos rfl

theorem changesFrom_other (offset length : Rat) {previous : Option α} {value : α}
    (hother : previous ≠ some value) (rest : List (Rat × α)) :
    changesFrom offset previous ((length, value) :: rest) =
      (offset, value) :: changesFrom (offset + length) (some value) rest :=
  if_neg hother

theorem changesFrom_concat (offset : Rat) (previous : Option α) (spans : List (Rat × α)) (length : Rat)
    (value : α) :
    changesFrom offset previous (spans ++ [(length, value)]) =
      changesFrom offset previous spans ++
        if (spans.getLast?.map Prod.snd).or previous = some value then []
        else [(offset + (spans.map Prod.fst).sum, value)] := by
  induction spans generalizing offset previous with
  | nil => simp [changesFrom]
  | cons span spans ih =>
      obtain ⟨first, current⟩ := span
      rw [getLast?_cons_or, List.cons_append, List.map_cons, List.sum_cons, ← add_assoc]
      by_cases hsame : previous = some current
      · subst hsame
        rw [changesFrom_same, changesFrom_same, ih]
      · rw [changesFrom_other _ _ hsame, changesFrom_other _ _ hsame, ih, List.cons_append]

/-- The last change is to the value in force at the end. -/
theorem getLast?_changesFrom (offset : Rat) (previous : Option α) (spans : List (Rat × α)) :
    ((changesFrom offset previous spans).getLast?.map Prod.snd).or previous =
      (spans.getLast?.map Prod.snd).or previous := by
  induction spans generalizing offset previous with
  | nil => rfl
  | cons span spans ih =>
      obtain ⟨first, current⟩ := span
      rw [getLast?_cons_or]
      by_cases hsame : previous = some current
      · subst hsame
        rw [changesFrom_same, ih]
      · rw [changesFrom_other _ _ hsame, getLast?_cons_or, ih]

theorem markChange_eq (changes : List (Rat × α)) (offset : Rat) (value : α) :
    Song.markChange changes offset value =
      changes ++ if changes.getLast?.map Prod.snd = some value then [] else [(offset, value)] := by
  unfold Song.markChange
  cases hlast : changes.getLast? with
  | none => simp [List.getLast?_eq_none_iff.mp hlast]
  | some last =>
      obtain ⟨_, current⟩ := last
      by_cases hsame : current = value
      · simp [hsame]
      · simp [hsame]

/-- Noting the value of one more span in a list of change points gives the change points of all spans. -/
theorem changePoints_concat {lengths : List Rat} {values : List α} (hcount : lengths.length = values.length)
    (length : Rat) (value : α) :
    changePoints ((lengths ++ [length]).zip (values ++ [value])) =
      Song.markChange (changePoints (lengths.zip values)) lengths.sum value := by
  have hlengths : (lengths.zip values).map Prod.fst = lengths := List.map_fst_zip hcount.le
  have hlast := getLast?_changesFrom 0 none (lengths.zip values)
  rw [Option.or_none, Option.or_none] at hlast
  rw [List.zip_append hcount, List.zip_cons_cons, List.zip_nil_left, markChange_eq, changePoints,
    changesFrom_concat, hlengths, Option.or_none, changePoints, hlast, zero_add]

variable {offset : Rat} {previous : Option α} {spans : List (Rat × α)}

theorem le_of_mem_changesFrom (hpos : ∀ span ∈ spans, 0 < span.1) :
    ∀ c ∈ changesFrom offset previous spans, offset ≤ c.1 := by
  induction spans generalizing offset previous with
  | nil => exact fun c hc => absurd hc List.not_mem_nil
  | cons span spans ih =>
      obtain ⟨first, current⟩ := span
      obtain ⟨hfirst, hrest⟩ := List.forall_mem_cons.mp hpos
      intro c hc
      by_cases hsame : previous = some current
      · subst hsame
        rw [changesFrom_same] at hc
        linarith [ih hrest c hc]
      · rw [changesFrom_other _ _ hsame] at hc
        rcases List.mem_cons.mp hc with rfl | hc
        · exact le_rfl
        · linarith [ih hrest c hc]

theorem changesFrom_rises (hpos : ∀ span ∈ spans, 0 < span.1) :
    ((changesFrom offset previous spans).map Prod.fst).Pairwise (· < ·) := by
  induction spans generalizing offset previous with
  | nil => exact List.Pairwise.nil
  | cons span spans ih =>
      obtain ⟨first, current⟩ := span
      obtain ⟨hfirst, hrest⟩ := List.forall_mem_cons.mp hpos
      by_cases hsame : previous = some current
      · subst hsame
        rw [changesFrom_same]
        exact ih hrest
      · rw [changesFrom_other _ _ hsame, List.map_cons, List.pairwise_cons]
        refine ⟨fun x hx => ?_, ih hrest⟩
        obtain ⟨c, hc, rfl⟩ := List.mem_map.mp hx
        linarith [le_of_mem_changesFrom hrest c hc]

theorem changesFrom_differs (offset : Rat) (previous : Option α) (spans : List (Rat × α)) :
    (previous.toList ++ (changesFrom offset previous spans).map Prod.snd).IsChain (· ≠ ·) := by
  induction spans generalizing offset previous with
  | nil => cases previous <;> simp [changesFrom]
  | cons span spans ih =>
      obtain ⟨first, current⟩ := span
      by_cases hsame : previous = some current
      · subst hsame
        rw [changesFrom_same]
        exact ih _ _
      · rw [changesFrom_other _ _ hsame, List.map_cons]
        have hrest := ih (offset + first) (some current)
        cases previous with
        | none => exact hrest
        | some value =>
            exact List.isChain_cons_cons.mpr ⟨fun heq => hsame (congrArg some heq), hrest⟩

theorem isChangeList_changePoints (hpos : ∀ span ∈ spans, 0 < span.1) : IsChangeList (changePoints spans) where
  starts c hc := by
    cases spans with
    | nil => cases hc
    | cons span rest =>
        rw [changePoints, changesFrom_other _ _ (by simp)] at hc
        cases hc
        rfl
  rises := changesFrom_rises hpos
  differs := changesFrom_differs 0 none spans

end LineScore
