import Mathlib.Data.Rat.Defs

/-!
# JavaScript values

The values the modelled code meets: strings as sequences of UTF-16 code units, numbers as the
rationals a double can hold together with the four values that are not rationals, and plain data
built from them. An array and an object carry the reference they are compared by; two values are the
same value (`Object.is`) exactly when they are equal here. An array has no holes, so where one would be
passed over (`every`) or read (`for...of`) makes no difference.
-/

namespace Js

/-- A string: its UTF-16 code units, lone surrogates included. -/
abbrev Str := List UInt16

/-- Strings are compared by their code units. -/
instance : LawfulBEq Str := inferInstance

/-- The code units of one character. -/
def units (c : Char) : Str :=
  if c.toNat < 0x10000 then [UInt16.ofNat c.toNat]
  else [UInt16.ofNat (0xD800 + (c.toNat - 0x10000) / 0x400),
    UInt16.ofNat (0xDC00 + (c.toNat - 0x10000) % 0x400)]

/-- The decimal digits of a number. -/
def decimal (n : Nat) : Str := (Nat.toDigits 10 n).flatMap units

/-- The string a source literal denotes. -/
def js (s : String) : Str := s.toList.flatMap units

/-- A number. Zero is `rat 0`, and `-0` is its own value. -/
inductive Number where
  | nan
  | infinity (negative : Bool)
  | negZero
  | rat (q : ℚ)
deriving DecidableEq

namespace Number

/-- `Number.isFinite`. -/
def isFinite : Number → Bool
  | nan => false
  | infinity _ => false
  | negZero => true
  | rat _ => true

/-- The integer a number is, if it is one. `-0` is the integer zero. -/
def toInt? : Number → Option Int
  | negZero => some 0
  | rat q => if q.den = 1 then some q.num else none
  | _ => none

/-- `Number.isInteger`. -/
def isInteger (n : Number) : Bool := n.toInt?.isSome

/-- `Number.MAX_SAFE_INTEGER`. -/
def maxSafeInteger : Int := 9007199254740991

/-- `Number.isSafeInteger`. -/
def isSafeInteger (n : Number) : Bool :=
  match n.toInt? with
  | some z => decide (-maxSafeInteger ≤ z ∧ z ≤ maxSafeInteger)
  | none => false

end Number

/-- What a value is that is neither data nor absent. -/
inductive NonData where
  | function
  | symbol
  | bigint
deriving DecidableEq

/-- A value: plain data, `undefined`, or something that is not data. -/
inductive Value where
  | undefined
  | null
  | bool (b : Bool)
  | num (n : Number)
  | str (s : Str)
  | arr (ref : Nat) (items : List Value)
  | obj (ref : Nat) (props : List (Str × Value))
  | other (kind : NonData) (ref : Nat)

namespace Value

instance : Inhabited Value := ⟨undefined⟩

mutual

/-- `Object.is`: the recursion goes down arrays and objects, which are compared with their
references. -/
def is : Value → Value → Bool
  | undefined, undefined => true
  | null, null => true
  | bool x, bool y => x == y
  | num x, num y => x == y
  | str x, str y => x == y
  | arr r xs, arr q ys => r == q && isItems xs ys
  | obj r xs, obj q ys => r == q && isProps xs ys
  | other k r, other l q => k == l && r == q
  | _, _ => false

/-- The same for the items of two arrays. -/
def isItems : List Value → List Value → Bool
  | [], [] => true
  | x :: xs, y :: ys => is x y && isItems xs ys
  | _, _ => false

/-- The same for the properties of two objects. -/
def isProps : List (Str × Value) → List (Str × Value) → Bool
  | [], [] => true
  | (k, x) :: xs, (l, y) :: ys => k == l && is x y && isProps xs ys
  | _, _ => false

end

mutual

/-- Two values are the same value exactly when they are equal. -/
theorem is_iff : ∀ a b : Value, is a b = true ↔ a = b
  | undefined, b => by cases b <;> simp [is]
  | null, b => by cases b <;> simp [is]
  | bool x, b => by cases b <;> simp [is]
  | num x, b => by cases b <;> simp [is]
  | str x, b => by cases b <;> simp [is]
  | arr r xs, b => by
    cases b with
    | arr q ys => simp [is, isItems_iff xs ys]
    | _ => simp [is]
  | obj r xs, b => by
    cases b with
    | obj q ys => simp [is, isProps_iff xs ys]
    | _ => simp [is]
  | other k r, b => by cases b <;> simp [is]

theorem isItems_iff : ∀ xs ys : List Value, isItems xs ys = true ↔ xs = ys
  | [], ys => by cases ys <;> simp [isItems]
  | x :: xs, [] => by simp [isItems]
  | x :: xs, y :: ys => by simp [isItems, is_iff x y, isItems_iff xs ys]

theorem isProps_iff : ∀ xs ys : List (Str × Value), isProps xs ys = true ↔ xs = ys
  | [], ys => by cases ys <;> simp [isProps]
  | (k, x) :: xs, [] => by simp [isProps]
  | (k, x) :: xs, (l, y) :: ys => by
    simp [isProps, is_iff x y, isProps_iff xs ys, and_assoc]

end

instance : DecidableEq Value := fun a b => decidable_of_iff (is a b = true) (is_iff a b)

/-- An array the code itself builds. Its reference is never compared. -/
def list (items : List Value) : Value := arr 0 items

/-- A list of strings as an array. -/
def strings (ss : List Str) : Value := list (ss.map str)

/-- `typeof value === "object" && value !== null`. -/
def isObject : Value → Bool
  | arr _ _ => true
  | obj _ _ => true
  | _ => false

/-- `Array.isArray`: the items of an array. -/
def items? : Value → Option (List Value)
  | arr _ xs => some xs
  | _ => none

/-- `Array.isArray`. -/
def isArray (v : Value) : Bool := v.items?.isSome

/-- `typeof value === "string"`: the string. -/
def str? : Value → Option Str
  | str s => some s
  | _ => none

theorem items?_eq_some {v : Value} {items : List Value} : v.items? = some items ↔ ∃ n, v = arr n items := by
  cases v <;> simp [items?]

theorem str?_eq_some {v : Value} {s : Str} : v.str? = some s ↔ v = str s := by
  cases v <;> simp [str?]

/-- `typeof value`. -/
def typeOf : Value → Str
  | undefined => js "undefined"
  | null => js "object"
  | bool _ => js "boolean"
  | num _ => js "number"
  | str _ => js "string"
  | arr _ _ => js "object"
  | obj _ _ => js "object"
  | other .function _ => js "function"
  | other .symbol _ => js "symbol"
  | other .bigint _ => js "bigint"

/-- What a `Set` or a `Map` keeps a value as: `-0` is kept as `0`. -/
def mapKey : Value → Value
  | num .negZero => num (.rat 0)
  | v => v

/-- The value a property list holds under a name. -/
def findProp (name : Str) : List (Str × Value) → Option Value
  | [] => none
  | (k, v) :: ps => if k = name then some v else findProp name ps

/-- A field read off a value that is an object: `undefined` when it is not there. An array has none
of the fields the modelled code reads by name. -/
def field (v : Value) (name : Str) : Value :=
  match v with
  | obj _ props => (findProp name props).getD undefined
  | _ => undefined

end Value

end Js
