import LineScore.Error

/-! Operations on a state that may fail half-way. What a failed operation has changed stays changed. -/

namespace LineScore

theorem exists_of_bind_eq_ok {ε α β : Type} {x : Except ε α} {f : α → Except ε β} {b : β}
    (h : x >>= f = .ok b) : ∃ a, x = .ok a ∧ f a = .ok b := by
  cases x with
  | error e => cases h
  | ok a => exact ⟨a, rfl, h⟩

theorem exists_of_map_eq_ok {ε α β : Type} {f : α → β} {x : Except ε α} {b : β} (h : x.map f = .ok b) :
    ∃ a, x = .ok a ∧ f a = b := by
  cases x with
  | error e => cases h
  | ok a =>
      cases h
      exact ⟨a, rfl, rfl⟩

theorem exists_of_mem_mapM {ε α β : Type} {f : α → Except ε β} {xs : List α} {ys : List β}
    (h : xs.mapM f = .ok ys) : ∀ x ∈ xs, ∃ y, f x = .ok y := by
  induction xs generalizing ys with
  | nil => exact fun x hx => absurd hx List.not_mem_nil
  | cons x xs ih =>
      rw [List.mapM_cons] at h
      obtain ⟨y, hy, h⟩ := exists_of_bind_eq_ok h
      obtain ⟨others, hothers, -⟩ := exists_of_bind_eq_ok h
      exact List.forall_mem_cons.mpr ⟨⟨y, hy⟩, ih hothers⟩

/-- What an operation leaves behind: the state, and the error if it failed. -/
structure Attempt (σ : Type) where
  state : σ
  error : Option Error := none
  deriving DecidableEq, Repr

namespace Attempt

variable {σ τ : Type}

/-- Goes on with the state unless the attempt has failed. -/
def andThen (a : Attempt σ) (next : σ → Attempt σ) : Attempt σ :=
  match a.error with
  | none => next a.state
  | some _ => a

theorem andThen_of_ok {a : Attempt σ} {next : σ → Attempt σ} (h : a.error = none) :
    a.andThen next = next a.state := by
  simp [andThen, h]

theorem andThen_of_error {a : Attempt σ} {next : σ → Attempt σ} {e : Error} (h : a.error = some e) :
    a.andThen next = a := by
  simp [andThen, h]

theorem error_of_andThen {a : Attempt σ} {next : σ → Attempt σ} (h : (a.andThen next).error = none) :
    a.error = none := by
  cases herror : a.error with
  | none => rfl
  | some e => rw [andThen_of_error herror, herror] at h; cases h

/-- An attempt in two parts fails in the one or in the other. -/
theorem error_cases_of_andThen {a : Attempt σ} {next : σ → Attempt σ} {e : Error}
    (h : (a.andThen next).error = some e) :
    a.error = some e ∨ a.error = none ∧ (next a.state).error = some e := by
  cases herror : a.error with
  | none => exact Or.inr ⟨rfl, by rwa [andThen_of_ok herror] at h⟩
  | some other => exact Or.inl (by rwa [andThen_of_error herror, herror] at h)

/-- Wherever an attempt in two parts stops, what the first part brings about and the second keeps holds. -/
theorem andThen_state {P : σ → Prop} {a : Attempt σ} {next : σ → Attempt σ} (hfirst : P a.state)
    (hnext : P a.state → P (next a.state).state) : P (a.andThen next).state := by
  cases h : a.error with
  | none =>
      rw [andThen_of_ok h]
      exact hnext hfirst
  | some e =>
      rw [andThen_of_error h]
      exact hfirst

theorem andThen_assoc (a : Attempt σ) (next last : σ → Attempt σ) :
    (a.andThen next).andThen last = a.andThen fun s => (next s).andThen last := by
  cases h : a.error <;> simp [andThen, h]

theorem andThen_done (a : Attempt σ) : (a.andThen fun s => ⟨s, none⟩) = a := by
  obtain ⟨state, error⟩ := a
  cases error <;> rfl

/-- What follows an attempt matters only where the attempt succeeds. -/
theorem andThen_congr {a : Attempt σ} {next other : σ → Attempt σ}
    (h : a.error = none → next a.state = other a.state) : a.andThen next = a.andThen other := by
  cases herror : a.error with
  | none => rw [andThen_of_ok herror, andThen_of_ok herror, h herror]
  | some e => rw [andThen_of_error herror, andThen_of_error herror]

/-- The same attempt on a state that holds the old one. -/
def map (f : σ → τ) (a : Attempt σ) : Attempt τ :=
  ⟨f a.state, a.error⟩

def ofExcept (state : σ) : Except Error σ → Attempt σ
  | .ok next => ⟨next, none⟩
  | .error e => ⟨state, some e⟩

end Attempt

end LineScore
