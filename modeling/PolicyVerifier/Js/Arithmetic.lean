import PolicyVerifier.Js.Operators

/-!
# Adding numbers

`+` and `-` on numbers, for the claims of a token that are times. A sum of finite numbers is exact here: what is
stated of these checks is stated of exact numbers, and whole seconds are added and taken away without rounding.
-/

namespace Js

namespace Number

/-- `-x`. -/
def neg : Number → Number
  | nan => nan
  | infinity negative => infinity !negative
  | negZero => rat 0
  | rat q => if q = 0 then negZero else rat (-q)

/-- The exact number a finite number is; `-0` is zero. -/
def toRat? : Number → Option ℚ
  | negZero => some 0
  | rat q => some q
  | _ => none

/-- `x + y`. -/
def add : Number → Number → Number
  | nan, _ => nan
  | _, nan => nan
  | infinity a, infinity b => if a = b then infinity a else nan
  | infinity a, _ => infinity a
  | _, infinity b => infinity b
  | negZero, negZero => negZero
  | negZero, rat q => rat q
  | rat q, negZero => rat q
  | rat p, rat q => rat (p + q)

/-- `x - y`. -/
def sub (x y : Number) : Number := x.add y.neg

variable {x y : Number} {a b : ℚ}

theorem toRat?_neg (h : x.toRat? = some a) : x.neg.toRat? = some (-a) := by
  cases x with
  | nan => exact absurd h (by simp [toRat?])
  | infinity negative => exact absurd h (by simp [toRat?])
  | negZero =>
    obtain rfl := Option.some.inj h
    rfl
  | rat q =>
    obtain rfl := Option.some.inj h
    show (if q = 0 then negZero else rat (-q)).toRat? = some (-q)
    split
    · rename_i hzero
      rw [hzero]
      rfl
    · rfl

theorem toRat?_add (hx : x.toRat? = some a) (hy : y.toRat? = some b) : (x.add y).toRat? = some (a + b) := by
  cases x <;> cases y <;> simp_all [toRat?, add]

theorem toRat?_sub (hx : x.toRat? = some a) (hy : y.toRat? = some b) : (x.sub y).toRat? = some (a - b) := by
  rw [sub, toRat?_add hx (toRat?_neg hy), sub_eq_add_neg]

theorem extended_toRat? (h : x.toRat? = some a) :
    x.extended = some ((a : WithTop ℚ) : WithBot (WithTop ℚ)) := by
  cases x <;> simp_all [toRat?, extended]

theorem less_iff (hx : x.toRat? = some a) (hy : y.toRat? = some b) : x.less y = true ↔ a < b := by
  rw [less, extended_toRat? hx, extended_toRat? hy]
  simp

theorem lessOrEqual_iff (hx : x.toRat? = some a) (hy : y.toRat? = some b) :
    x.lessOrEqual y = true ↔ a ≤ b := by
  rw [lessOrEqual, extended_toRat? hx, extended_toRat? hy]
  simp

end Number

end Js
