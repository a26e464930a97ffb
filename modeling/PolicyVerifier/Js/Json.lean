import PolicyVerifier.Js.Value

/-!
# JSON text

`JSON.stringify`. A string is written over its UTF-16 code units: a pair of surrogates as it is, a
lone surrogate escaped. Which digits a number is written with is a parameter.
-/

namespace Js

namespace Json

/-- `"`. -/
def quotationMark : UInt16 := 0x22

/-- `\`. -/
def reverseSolidus : UInt16 := 0x5C

/-- Whether the code unit is the first of a surrogate pair. -/
def isHighSurrogate (c : UInt16) : Bool := 0xD800 ≤ c && c ≤ 0xDBFF

/-- Whether the code unit is the second of a surrogate pair. -/
def isLowSurrogate (c : UInt16) : Bool := 0xDC00 ≤ c && c ≤ 0xDFFF

/-- A digit of a `\u` escape, in lower case. -/
def hexDigit (n : Nat) : UInt16 := if n < 10 then UInt16.ofNat (0x30 + n) else UInt16.ofNat (0x57 + n)

/-- The letter after the backslash, for the code units that have one. -/
def shortEscape (c : UInt16) : Option UInt16 :=
  if c = 0x08 then some 0x62
  else if c = 0x09 then some 0x74
  else if c = 0x0A then some 0x6E
  else if c = 0x0C then some 0x66
  else if c = 0x0D then some 0x72
  else if c = quotationMark then some quotationMark
  else if c = reverseSolidus then some reverseSolidus
  else none

/-- `\u` and the four hexadecimal digits of the code unit. -/
def unicodeEscape (c : UInt16) : Str :=
  let n := c.toNat
  [reverseSolidus, 0x75, hexDigit (n / 0x1000), hexDigit (n / 0x100 % 0x10), hexDigit (n / 0x10 % 0x10),
    hexDigit (n % 0x10)]

/-- A code unit that is not half of a surrogate pair. -/
def escapeUnit (c : UInt16) : Str :=
  match shortEscape c with
  | some e => [reverseSolidus, e]
  | none =>
    if c < 0x20 || isHighSurrogate c || isLowSurrogate c then unicodeEscape c else [c]

/-- What stands between the quotation marks. -/
def escape : Str → Str
  | [] => []
  | [c] => escapeUnit c
  | c :: d :: s =>
    if isHighSurrogate c && isLowSurrogate d then c :: d :: escape s
    else escapeUnit c ++ escape (d :: s)

/-- `JSON.stringify` on a string. -/
def quote (s : Str) : Str := quotationMark :: escape s ++ [quotationMark]

/-- `JSON.stringify` on an integer small enough to be written without an exponent. -/
def integer (z : Int) : Str :=
  match z with
  | .ofNat n => decimal n
  | .negSucc n => js "-" ++ decimal (n + 1)

/-- A character a finite number is written with. -/
inductive NumeralChar where
  | digit (d : Fin 10)
  | point
  | exponent
  | plus
  | minus

/-- The code unit of the character. -/
def NumeralChar.unit : NumeralChar → UInt16
  | digit d => UInt16.ofNat (0x30 + d)
  | point => 0x2E
  | exponent => 0x65
  | plus => 0x2B
  | minus => 0x2D

section Stringify

variable (numeral : ℚ → List NumeralChar)

/-- A number: `-0` is written as zero, and what is not finite as `null`. -/
def number : Number → Str
  | .rat q => (numeral q).map NumeralChar.unit
  | .negZero => js "0"
  | _ => js "null"

mutual

/-- `JSON.stringify` on a value; none where it is `undefined`. -/
def stringify : Value → Option Str
  | .null => some (js "null")
  | .bool true => some (js "true")
  | .bool false => some (js "false")
  | .num n => some (number numeral n)
  | .str s => some (quote s)
  | .arr _ items => some (js "[" ++ [(0x2C : UInt16)].intercalate (stringifyItems items) ++ js "]")
  | .obj _ props => some (js "\x7b" ++ [(0x2C : UInt16)].intercalate (stringifyProps props) ++ js "\x7d")
  | .undefined => none
  | .other _ _ => none

/-- The items of an array: what is `undefined` on its own is written as `null`. -/
def stringifyItems : List Value → List Str
  | [] => []
  | v :: vs => (stringify v).getD (js "null") :: stringifyItems vs

/-- The properties of an object: one whose value is `undefined` on its own is left out. -/
def stringifyProps : List (Str × Value) → List Str
  | [] => []
  | (k, v) :: ps =>
    match stringify v with
    | some text => (quote k ++ js ":" ++ text) :: stringifyProps ps
    | none => stringifyProps ps

end

/-- `${JSON.stringify(value)}`. -/
def text (v : Value) : Str := (stringify numeral v).getD (js "undefined")

end Stringify

end Json

end Js
