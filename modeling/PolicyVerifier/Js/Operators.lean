import Mathlib.Algebra.Order.Ring.Unbundled.Rat
import Mathlib.Order.WithBot
import PolicyVerifier.Js.Value

/-!
# Comparing values

`===`, and the order of numbers, in which `NaN` has no place.
-/

namespace Js

/-- `x === y`. -/
def strictEquals (x y : Value) : Bool := decide (x ≠ .num .nan ∧ x.mapKey = y.mapKey)

/-- Where a number stands: `-0` where `0` does, and `NaN` nowhere. -/
def Number.extended : Number → Option (WithBot (WithTop ℚ))
  | .nan => none
  | .infinity negative => some (if negative then ⊥ else ((⊤ : WithTop ℚ) : WithBot (WithTop ℚ)))
  | .negZero => some (((0 : ℚ) : WithTop ℚ) : WithBot (WithTop ℚ))
  | .rat q => some ((q : WithTop ℚ) : WithBot (WithTop ℚ))

/-- `x < y`. -/
def Number.less (x y : Number) : Bool :=
  match x.extended, y.extended with
  | some a, some b => decide (a < b)
  | _, _ => false

/-- `x <= y`. -/
def Number.lessOrEqual (x y : Number) : Bool :=
  match x.extended, y.extended with
  | some a, some b => decide (a ≤ b)
  | _, _ => false

/-- Numbers that differ in the sign of zero alone stand in one place. -/
theorem Number.extended_eq_of_mapKey {x y : Number} (h : (Value.num x).mapKey = (Value.num y).mapKey) :
    x.extended = y.extended := by
  have hkey : ∀ n : Number, ∃ m, (Value.num n).mapKey = .num m ∧ n.extended = m.extended := by
    intro n
    cases n with
    | negZero => exact ⟨.rat 0, rfl, rfl⟩
    | nan => exact ⟨.nan, rfl, rfl⟩
    | infinity negative => exact ⟨.infinity negative, rfl, rfl⟩
    | rat q => exact ⟨.rat q, rfl, rfl⟩
  obtain ⟨m, hm, hx⟩ := hkey x
  obtain ⟨n, hn, hy⟩ := hkey y
  rw [hm, hn, Value.num.injEq] at h
  rw [hx, hy, h]

end Js
