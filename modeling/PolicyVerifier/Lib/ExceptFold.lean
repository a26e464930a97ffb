import Mathlib.Init

/-!
# Computations that may fail

Taking a computation in `Except` apart at its first step, and what the error of a loop is the error
of.
-/

namespace ExceptFold

variable {ε : Type*} {α β σ : Type}

/-- A sequence that succeeded went through its first step. -/
theorem bind_eq_ok {x : Except ε α} {f : α → Except ε β} {b : β} (h : x >>= f = .ok b) :
    ∃ a, x = .ok a ∧ f a = .ok b := by
  cases x with
  | error e => exact absurd h (by simp [bind, Except.bind])
  | ok a => exact ⟨a, rfl, h⟩

/-- A sequence succeeds exactly when its first step does and the rest after it. -/
theorem exists_bind_eq_ok {x : Except ε α} {f : α → Except ε β} :
    (∃ b, x >>= f = .ok b) ↔ ∃ a, x = .ok a ∧ ∃ b, f a = .ok b := by
  constructor
  · rintro ⟨b, h⟩
    obtain ⟨a, ha, hb⟩ := bind_eq_ok h
    exact ⟨a, ha, b, hb⟩
  · rintro ⟨a, rfl, b, hb⟩
    exact ⟨b, hb⟩

/-- A sequence that failed did so in its first step, or after it. -/
theorem bind_eq_error {x : Except ε α} {f : α → Except ε β} {e : ε} (h : x >>= f = .error e) :
    x = .error e ∨ ∃ a, x = .ok a ∧ f a = .error e := by
  cases x with
  | error e' => exact Or.inl (congrArg Except.error (Except.error.inj h))
  | ok a => exact Or.inr ⟨a, rfl, h⟩

/-- A list of computations that all succeed. -/
theorem mapM_ok {f : α → Except ε β} {g : α → β} {xs : List α} (h : ∀ x ∈ xs, f x = .ok (g x)) :
    xs.mapM f = .ok (xs.map g) := by
  induction xs with
  | nil => rfl
  | cons x xs ih =>
    rw [List.mapM_cons, h x (by simp), ih fun y hy => h y (by simp [hy])]
    rfl

/-- A list of computations is the same as one of computations that do the same. -/
theorem mapM_congr {f g : α → Except ε β} {xs : List α} (h : ∀ x ∈ xs, f x = g x) :
    xs.mapM f = xs.mapM g := by
  induction xs with
  | nil => rfl
  | cons x xs ih =>
    rw [List.mapM_cons, List.mapM_cons, h x (by simp), ih fun y hy => h y (by simp [hy])]

/-- A turn that succeeds hands its state to the rest of the loop. -/
theorem foldlM_cons_ok {f : σ → α → Except ε σ} {a : α} {as : List α} {s s' : σ}
    (h : f s a = .ok s') : (a :: as).foldlM f s = as.foldlM f s' := by
  rw [List.foldlM_cons, h]
  rfl

/-- A loop of one turn. -/
theorem foldlM_singleton (f : σ → α → Except ε σ) (a : α) (s : σ) : [a].foldlM f s = f s a := by
  rw [List.foldlM_cons]
  cases f s a <;> rfl

/-- The error of a loop is the error of one of its turns. -/
theorem foldlM_error {f : σ → α → Except ε σ} {Q : ε → Prop} (h : ∀ s a e, f s a = .error e → Q e)
    {as : List α} {s : σ} {e : ε} (hfold : as.foldlM f s = .error e) : Q e := by
  induction as generalizing s with
  | nil => exact absurd hfold (by simp [pure, Except.pure])
  | cons a as ih =>
    rw [List.foldlM_cons] at hfold
    rcases bind_eq_error hfold with hfirst | ⟨s', -, hrest⟩
    · exact h s a e hfirst
    · exact ih hrest

end ExceptFold
