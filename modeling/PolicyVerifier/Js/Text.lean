import PolicyVerifier.Js.Json

/-!
# Reading a string

The methods of a string the code reads answers and file names with, over UTF-16 code units.
-/

namespace Js

/-- `s.startsWith(part)`. -/
def startsWith (part s : Str) : Bool := part.isPrefixOf s

/-- `s.endsWith(part)`. -/
def endsWith (part s : Str) : Bool := part.isSuffixOf s

/-- `s.indexOf(part)`, where `part` occurs. -/
def indexOf (part : Str) : Str → Option Nat
  | [] => if part = [] then some 0 else none
  | c :: s => if startsWith part (c :: s) then some 0 else (indexOf part s).map (· + 1)

/-- `[0-9a-f]`. -/
def isHexDigit (c : UInt16) : Bool := (0x30 ≤ c && c ≤ 0x39) || (0x61 ≤ c && c ≤ 0x66)

/-- The number a digit of `[0-9a-f]` stands for. -/
def hexDigitValue (c : UInt16) : Nat := if c ≤ 0x39 then c.toNat - 0x30 else c.toNat - 0x57

/-- `Number.parseInt(digits, 16)`. -/
def parseHex (digits : Str) : Nat := digits.foldl (fun n c => n * 16 + hexDigitValue c) 0

/-- `n.toString(16)`. -/
def hexadecimal (n : Nat) : Str := (Nat.toDigits 16 n).flatMap units

/-- `String.fromCodePoint`. -/
def fromCodePoint (n : Nat) : Str :=
  if n < 0x10000 then [UInt16.ofNat n]
  else [UInt16.ofNat (0xD800 + (n - 0x10000) / 0x400), UInt16.ofNat (0xDC00 + (n - 0x10000) % 0x400)]

/-- `s.toLowerCase()`, exact on the letters it is compared in: besides `A` to `Z`, only U+0130 and
U+212A have a letter of `a` to `z` in their lower case. Any other code unit is left as it is. -/
def toLowerCase (s : Str) : Str := s.flatMap fun c =>
  if 0x41 ≤ c ∧ c ≤ 0x5A then [c + 0x20]
  else if c = 0x130 then [0x69, 0x307]
  else if c = 0x212A then [0x6B]
  else [c]

/-- White space and line terminators, as `trim` takes them off. -/
def isWhiteSpace (c : UInt16) : Bool :=
  (0x09 ≤ c && c ≤ 0x0D) || c == 0x20 || c == 0xA0 || c == 0x1680 || (0x2000 ≤ c && c ≤ 0x200A) ||
    c == 0x2028 || c == 0x2029 || c == 0x202F || c == 0x205F || c == 0x3000 || c == 0xFEFF

/-- `s.trim()`. -/
def trim (s : Str) : Str := ((s.dropWhile isWhiteSpace).reverse.dropWhile isWhiteSpace).reverse

/-- A setting that is a number, or a text that is not blank as `Number` reads it; any other value is none. -/
def writtenNumber (number : Str → Number) : Value → Number
  | .num n => n
  | .str s => if s.all isWhiteSpace then .nan else number s
  | _ => .nan

/-- A line terminator, which `.` does not match. -/
def isLineTerminator (c : UInt16) : Bool := c == 0x0A || c == 0x0D || c == 0x2028 || c == 0x2029

/-- `s.isWellFormed()`: no surrogate stands alone. -/
def isWellFormed : Str → Bool
  | [] => true
  | [c] => !(Json.isHighSurrogate c || Json.isLowSurrogate c)
  | c :: d :: s =>
    if Json.isHighSurrogate c && Json.isLowSurrogate d then isWellFormed s
    else !(Json.isHighSurrogate c || Json.isLowSurrogate c) && isWellFormed (d :: s)

/-- The UTF-8 bytes of a code point. -/
def utf8Point (n : Nat) : List UInt8 :=
  if n < 0x80 then [UInt8.ofNat n]
  else if n < 0x800 then [UInt8.ofNat (0xC0 + n / 0x40), UInt8.ofNat (0x80 + n % 0x40)]
  else if n < 0x10000 then
    [UInt8.ofNat (0xE0 + n / 0x1000), UInt8.ofNat (0x80 + n / 0x40 % 0x40), UInt8.ofNat (0x80 + n % 0x40)]
  else
    [UInt8.ofNat (0xF0 + n / 0x40000), UInt8.ofNat (0x80 + n / 0x1000 % 0x40),
      UInt8.ofNat (0x80 + n / 0x40 % 0x40), UInt8.ofNat (0x80 + n % 0x40)]

/-- `Buffer.from(s, "utf8")`: a lone surrogate is written as U+FFFD. -/
def utf8Bytes : Str → List UInt8
  | [] => []
  | [c] => utf8Point (alone c)
  | c :: d :: s =>
    if Json.isHighSurrogate c && Json.isLowSurrogate d then
      utf8Point (0x10000 + (c.toNat - 0xD800) * 0x400 + (d.toNat - 0xDC00)) ++ utf8Bytes s
    else utf8Point (alone c) ++ utf8Bytes (d :: s)
where
  /-- The code point a code unit is on its own. -/
  alone (c : UInt16) : Nat :=
    if Json.isHighSurrogate c || Json.isLowSurrogate c then 0xFFFD else c.toNat

/-- `Buffer.byteLength(s, "utf8")`. -/
def utf8Length (s : Str) : Nat := (utf8Bytes s).length

end Js
