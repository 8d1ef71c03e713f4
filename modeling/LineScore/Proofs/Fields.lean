import LineScore.Document.Schema
import Mathlib.Data.List.Forall2

/-! Reading the fields of an object. A reader of an object succeeds when all of its fields do, so the values
read are those of the fields one by one; and a field that is put into an object changes what is read of
that field only. -/

namespace LineScore

/-- Replacing what is kept under a key replaces what is found under that key only. -/
theorem find?_replace {κ β : Type} [DecidableEq κ] (entries : List (κ × β)) (key other : κ) (value : β) :
    ((entries.map fun f => if f.1 = key then (key, value) else f).find? fun f => f.1 = other).map Prod.snd =
      if other = key then ((entries.find? fun f => f.1 = key).map Prod.snd).map fun _ => value
      else (entries.find? fun f => f.1 = other).map Prod.snd := by
  induction entries with
  | nil => simp
  | cons f entries ih =>
      rw [List.map_cons]
      by_cases hkey : f.1 = key
      · by_cases hother : other = key
        · simp [hkey, hother]
        · simpa [hkey, hother, Ne.symm hother] using ih
      · by_cases hother : other = key
        · simpa [hkey, hother] using ih
        · by_cases hhere : f.1 = other
          · simp [hother, hhere]
          · simpa [hkey, hother, hhere] using ih

namespace Json

theorem get?_cons (f : LooseText × Json) (fields : List (LooseText × Json)) (key : LooseText) :
    get? (f :: fields) key = if f.1 = key then some f.2 else get? fields key := by
  by_cases hkey : f.1 = key <;> simp [get?, hkey]

theorem get?_append (fields others : List (LooseText × Json)) (key : LooseText) :
    get? (fields ++ others) key = (get? fields key).or (get? others key) := by
  simp [get?, List.find?_append, Option.map_or]

theorem get?_eq_none_iff {fields : List (LooseText × Json)} {key : LooseText} :
    get? fields key = none ↔ (fields.any fun f => f.1 = key) = false := by
  simp [get?]

theorem get?_replace (fields : List (LooseText × Json)) (key other : LooseText) (value : Json) :
    get? (fields.map fun f => if f.1 = key then (key, value) else f) other =
      if other = key then (get? fields key).map fun _ => value else get? fields other :=
  find?_replace fields key other value

/-- A field that is put in has its value, and all others have theirs. -/
@[simp] theorem get?_put (fields : List (LooseText × Json)) (key other : LooseText) (value : Json) :
    get? (put fields key value) other = if other = key then some value else get? fields other := by
  unfold put
  cases hthere : fields.any fun f => f.1 = key with
  | true =>
      rw [if_pos rfl, get?_replace]
      cases hold : get? fields key with
      | none => simp [get?_eq_none_iff.mp hold] at hthere
      | some old => rfl
  | false =>
      have hnone := get?_eq_none_iff.mpr hthere
      rw [if_neg Bool.false_ne_true, get?_append, get?_cons]
      by_cases hother : other = key
      · simp [hother, hnone]
      · simp [hother, Ne.symm hother, get?]

theorem mem_put {fields : List (LooseText × Json)} {key : LooseText} {value : Json} {f : LooseText × Json}
    (h : f ∈ put fields key value) : f ∈ fields ∨ f = (key, value) := by
  unfold put at h
  split at h
  · obtain ⟨g, hg, hf⟩ := List.mem_map.mp h
    split at hf
    · exact Or.inr hf.symm
    · exact Or.inl (hf ▸ hg)
  · simpa using h

end Json

namespace Checked

variable {α β : Type}

theorem both_eq_ok_iff {first : Checked (α → β)} {second : Checked α} {b : β} :
    both first second = .ok b ↔ ∃ f a, first = .ok f ∧ second = .ok a ∧ f a = b := by
  cases first <;> cases second <;> simp [both]

theorem inside_eq_ok_iff {step : String} {result : Checked α} {a : α} :
    inside step result = .ok a ↔ result = .ok a := by
  cases result <;> simp [inside, Except.mapError]

theorem map_eq_ok_iff {result : Checked α} {f : α → β} {b : β} :
    result.map f = .ok b ↔ ∃ a, result = .ok a ∧ f a = b := by
  cases result <;> simp [Except.map]

theorem all_mapIdx_eq_ok_iff (read : Json → Checked α) {f : Nat → Json → Checked α}
    (hf : ∀ i item a, f i item = .ok a ↔ read item = .ok a) (items : List Json) (values : List α) :
    all (items.mapIdx f) = .ok values ↔ List.Forall₂ (fun item a => read item = .ok a) items values := by
  induction items generalizing f values with
  | nil => simp [all, eq_comm]
  | cons item items ih =>
      rw [List.mapIdx_cons, all, both_eq_ok_iff]
      have hrest := ih (f := fun i => f (i + 1)) fun i => hf (i + 1)
      constructor
      · rintro ⟨g, rest, hfirst, hall, rfl⟩
        obtain ⟨a, ha, rfl⟩ := map_eq_ok_iff.mp hfirst
        exact .cons ((hf 0 item a).mp ha) ((hrest rest).mp hall)
      · rintro (_ | ⟨ha, hall⟩)
        exact ⟨_, _, map_eq_ok_iff.mpr ⟨_, (hf 0 item _).mpr ha, rfl⟩, (hrest _).mpr hall, rfl⟩

end Checked

namespace Schema

open Checked

variable {α : Type} {read : Json → Checked α} {fields others : List (LooseText × Json)} {key : LooseText}

theorem list_eq_ok_iff {value : Json} {values : List α} :
    list read value = .ok values ↔
      ∃ items, value = .array items ∧ List.Forall₂ (fun item a => read item = .ok a) items values := by
  cases value with
  | array items =>
      rw [list, all_mapIdx_eq_ok_iff read fun i item a => inside_eq_ok_iff]
      simp
  | _ => simp [list, refuse]

theorem required_eq_ok_iff {a : α} :
    required key read fields = .ok a ↔ ∃ value, Json.get? fields key = some value ∧ read value = .ok a := by
  rw [required, inside_eq_ok_iff]
  cases Json.get? fields key <;> simp [refuse]

theorem optional_eq_ok_iff {default a : α} :
    optional key default read fields = .ok a ↔
      Json.get? fields key = none ∧ default = a ∨
        ∃ value, Json.get? fields key = some value ∧ read value = .ok a := by
  rw [optional, inside_eq_ok_iff]
  cases Json.get? fields key <;> simp

theorem required_congr (h : Json.get? fields key = Json.get? others key) (read : Json → Checked α) :
    required key read fields = required key read others := by
  rw [required, required, h]

theorem optional_congr (h : Json.get? fields key = Json.get? others key) (default : α)
    (read : Json → Checked α) : optional key default read fields = optional key default read others := by
  rw [optional, optional, h]

theorem noOthers_eq_ok_iff {declared : List LooseText} :
    noOthers declared fields = .ok () ↔ ∀ f ∈ fields, f.1 ∈ declared := by
  unfold noOthers
  cases hothers : fields.filter fun f => !declared.contains f.1 with
  | nil => simpa using hothers
  | cons f rest =>
      have hf : f ∈ fields.filter fun f => !declared.contains f.1 := by
        rw [hothers]
        exact List.mem_cons_self
      simp only [reduceCtorEq, false_iff]
      intro hall
      simp [List.mem_filter, hall f (List.mem_filter.mp hf).1] at hf

theorem noOthers_put {declared : List LooseText} (h : noOthers declared fields = .ok ()) (hkey : key ∈ declared)
    (value : Json) : noOthers declared (Json.put fields key value) = .ok () := by
  rw [noOthers_eq_ok_iff] at h ⊢
  intro f hf
  rcases Json.mem_put hf with hold | rfl
  · exact h f hold
  · exact hkey

theorem positive_eq_ok_iff {value : Json} {n : Int} : positive value = .ok n ↔ value = .integer n ∧ 0 < n := by
  cases value with
  | integer m =>
      by_cases hpos : 0 < m
      · simp only [positive, integer, bind, Except.bind, pure, Except.pure, hpos, if_true, Except.ok.injEq,
          Json.integer.injEq]
        exact ⟨fun h => ⟨h, h ▸ hpos⟩, fun h => h.1⟩
      · simp only [positive, integer, bind, Except.bind, hpos, if_false, refuse, reduceCtorEq, false_iff,
          Json.integer.injEq]
        rintro ⟨rfl, h⟩
        exact hpos h
  | _ => simp [positive, integer, refuse, bind, Except.bind]

theorem string_eq_ok_iff {value : Json} {text : LooseText} : string value = .ok text ↔ value = .string text := by
  cases value <;> simp [string, refuse]

theorem time_eq_ok_iff {value : Json} {text : LooseText} :
    Schema.time value = .ok text ↔ value = .string text ∧ ∃ meter, Meter.parse text.shown = .ok meter := by
  cases value with
  | string written =>
      cases hparse : Meter.parse written.shown with
      | ok meter =>
          simp only [Schema.time, string, bind, Except.bind, hparse, pure, Except.pure, Except.ok.injEq,
            Json.string.injEq]
          exact ⟨fun h => ⟨h, meter, h ▸ hparse⟩, fun h => h.1⟩
      | error e =>
          simp only [Schema.time, string, bind, Except.bind, hparse, refuse, reduceCtorEq, false_iff,
            Json.string.injEq]
          rintro ⟨rfl, meter, hmeter⟩
          simp [hparse] at hmeter
  | _ => simp [Schema.time, string, refuse, bind, Except.bind]

theorem nullable_eq_ok_iff {value : Json} {result : Option α} :
    nullable read value = .ok result ↔
      value = .null ∧ result = none ∨ value ≠ .null ∧ ∃ a, read value = .ok a ∧ some a = result := by
  cases value with
  | null => simp [nullable, eq_comm]
  | _ => simp [nullable, map_eq_ok_iff]

theorem integer_eq_ok_iff {value : Json} {n : Int} : integer value = .ok n ↔ value = .integer n := by
  cases value <;> simp [integer, refuse]

theorem pair_eq_ok_iff {value : Json} {first last : Int} :
    pair value = .ok (first, last) ↔ value = .array [.integer first, .integer last] := by
  have hmissing : ∀ (step : String) (n : Int), inside step (refuse "Field required") ≠ .ok n :=
    fun step n h => nomatch inside_eq_ok_iff.mp h
  cases value with
  | array items =>
      rw [pair, Json.array.injEq]
      match items with
      | [] => simp [pairItems, both_eq_ok_iff, hmissing]
      | [a] => simp [pairItems, both_eq_ok_iff, hmissing]
      | [a, b] => simp [pairItems, both_eq_ok_iff, inside_eq_ok_iff, integer_eq_ok_iff]
      | a :: b :: c :: rest => simp [pairItems, refuse]
  | _ => simp [pair, refuse]

/-- A span is a positive number, or a pair of numbers that are the ends of a range. -/
theorem span_eq_ok_iff {value : Json} {s : Span} :
    span value = .ok s ↔
      (∃ n, value = .integer n ∧ 0 < n ∧ s = .count n) ∨
        ∃ first last, value = .array [.integer first, .integer last] ∧ 1 ≤ first ∧ first ≤ last ∧
          s = .range first last := by
  unfold span
  split
  · next n hcount =>
      obtain ⟨rfl, hpos⟩ := positive_eq_ok_iff.mp hcount
      simp [hpos, eq_comm]
  · next first last _ hpair =>
      obtain rfl := pair_eq_ok_iff.mp hpair
      by_cases hrange : first < 1 ∨ last < first
      · have hno : ¬ (1 ≤ first ∧ first ≤ last) := by omega
        simpa [hrange, refuse] using fun h h' => absurd ⟨h, h'⟩ hno
      · have hyes : 1 ≤ first ∧ first ≤ last := by omega
        simp [hrange, hyes, eq_comm]
  · next asCount asPair hcount hpair =>
      simp only [both_eq_ok_iff, inside_eq_ok_iff, reduceCtorEq, false_and, and_false, exists_false, false_iff]
      rintro (⟨n, rfl, hpos, -⟩ | ⟨first, last, rfl, -⟩)
      · rw [positive_eq_ok_iff.mpr ⟨rfl, hpos⟩] at hcount
        cases hcount
      · rw [pair_eq_ok_iff.mpr rfl] at hpair
        cases hpair

end Schema

end LineScore
