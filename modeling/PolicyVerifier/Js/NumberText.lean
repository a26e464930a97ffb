import PolicyVerifier.Js.Rounding
import PolicyVerifier.Js.Value

/-!
# Numbers as text

`String(number)`: a double is written with the fewest digits that round back to it, and with those nearest to
it among as few.
-/

namespace Js

/-! ## Digits -/

/-- Digits and where the point stands among them: the `s` and `n` of `Number::toString`. -/
structure Decimal where
  s : Nat
  n : ℤ

/-- How many digits there are. -/
def Decimal.k (d : Decimal) : Nat := (decimal d.s).length

def Decimal.value (d : Decimal) : ℚ := d.s * 10 ^ (d.n - d.k)

/-- The two integers around a number, the nearer first. -/
def neighbours (q : ℚ) : List ℤ :=
  if roundHalfEven q = ⌊q⌋ then [⌊q⌋, ⌊q⌋ + 1] else [⌊q⌋ + 1, ⌊q⌋]

/-- The decimals of `k` digits around a number that is less than `10 ^ n` and not less than a tenth of it. -/
def decimalsAround (q : ℚ) (n : ℤ) (k : Nat) : List Decimal :=
  (neighbours (q * 10 ^ (k - n))).map fun s =>
    if s = 10 ^ k then { s := 1, n := n + 1 } else { s := s.toNat, n }

/-- The first decimal that rounds back to the number. Seventeen digits tell any two doubles apart. -/
def shortest (q : ℚ) : Option Decimal :=
  (List.range 17).findSome? fun digits =>
    (decimalsAround q (Int.log 10 q + 1) (digits + 1)).find? fun d => toDouble d.value = q

/-! ## Text -/

/-- The parts of a number's text. -/
structure Numeral where
  whole : Str
  fraction : Str := []
  exponent : Option ℤ := none

def zeros (count : Nat) : Str := List.replicate count 0x30

/-- The steps of `Number::toString` from the digits on. -/
def Decimal.numeral (d : Decimal) : Numeral :=
  let digits := decimal d.s
  if d.k ≤ d.n ∧ d.n ≤ 21 then { whole := digits ++ zeros (d.n - d.k).toNat }
  else if 0 < d.n ∧ d.n ≤ 21 then
    { whole := digits.take d.n.toNat, fraction := digits.drop d.n.toNat }
  else if -6 < d.n ∧ d.n ≤ 0 then { whole := js "0", fraction := zeros (-d.n).toNat ++ digits }
  else { whole := digits.take 1, fraction := digits.drop 1, exponent := some (d.n - 1) }

/-- The fraction after its point, where there is one. -/
def fractionText (fraction : Str) : Str := if fraction = [] then [] else js "." ++ fraction

/-- The exponent after its sign, where there is one. -/
def exponentText : Option ℤ → Str
  | none => []
  | some e => js "e" ++ (if e < 0 then js "-" else js "+") ++ decimal e.natAbs

def Numeral.text (numeral : Numeral) : Str :=
  numeral.whole ++ fractionText numeral.fraction ++ exponentText numeral.exponent

/-- A number that is not negative. One that no double is would be written as the fraction it is. -/
def magnitudeText (q : ℚ) : Str :=
  if q = 0 then js "0"
  else
    match shortest q with
    | some d => d.numeral.text
    | none => decimal q.num.natAbs ++ js "/" ++ decimal q.den

/-- `String(number)`. -/
def numberText : Number → Str
  | .nan => js "NaN"
  | .infinity negative => if negative then js "-Infinity" else js "Infinity"
  | .negZero => js "0"
  | .rat q => if q < 0 then js "-" ++ magnitudeText (-q) else magnitudeText q

end Js
