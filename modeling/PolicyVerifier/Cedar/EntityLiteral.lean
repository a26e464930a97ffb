import PolicyVerifier.Cedar.HttpEngine

/-!
# Entity references, as Cedar reads them

The grammar of `Type::"id"` from its reader's side: what an entity type path is, where a string literal
ends, and what its escapes stand for. The engine only writes such references; an agent reads them.
-/

namespace PolicyVerifier.Cedar

open Js

/-- `Ident(::Ident)*`. -/
def TypePath (type : Str) : Prop :=
  ∃ idents : List Str, idents ≠ [] ∧ (∀ ident ∈ idents, isIdentifier ident = true) ∧
    type = join (js "::") idents

/-- A control character of ASCII: C0, or DEL. -/
def IsControl (c : UInt16) : Prop := c < 0x20 ∨ c = 0x7F

/-- A digit of `[0-9A-Fa-f]` as one of `[0-9a-f]`. -/
def lowerHexDigit (c : UInt16) : UInt16 := if 0x41 ≤ c ∧ c ≤ 0x46 then c + 0x20 else c

/-- The digits of a hexadecimal number at the start of a text. -/
def hexDigitsOf (s : Str) : Str := (s.map lowerHexDigit).takeWhile isHexDigit

/-- What follows a backslash: what the escape stands for, and how many code units it takes. -/
def cedarEscape (s : Str) : Option (Str × Nat) :=
  match s with
  | 0x75 :: 0x7B :: rest =>
    let digits := hexDigitsOf rest
    let codePoint := parseHex digits
    if 1 ≤ digits.length ∧ digits.length ≤ 6 ∧ (rest.drop digits.length).head? = some 0x7D ∧
        codePoint ≤ 0x10FFFF ∧ ¬ (0xD800 ≤ codePoint ∧ codePoint ≤ 0xDFFF) then
      some (fromCodePoint codePoint, digits.length + 3)
    else none
  | 0x78 :: rest =>
    let digits := hexDigitsOf (rest.take 2)
    if digits.length = 2 ∧ parseHex digits ≤ 0x7F then some (fromCodePoint (parseHex digits), 3) else none
  | d :: _ => (debugEscape d).map fun c => ([c], 1)
  | [] => none

/-- The string the inside of a literal stands for. `skip` counts the code units of an escape that is
already read; a bare quote or carriage return is no part of one. -/
def unescapeCedarFrom (skip : Nat) : Str → Option Str
  | [] => some []
  | c :: s =>
    if 0 < skip then unescapeCedarFrom (skip - 1) s
    else if c = 0x5C then
      match cedarEscape s with
      | some (written, length) => (unescapeCedarFrom length s).map (written ++ ·)
      | none => none
    else if c = 0x22 ∨ c = 0x0D then none
    else (unescapeCedarFrom 0 s).map (c :: ·)

/-- The string the inside of a literal stands for. -/
def unescapeCedar (inside : Str) : Option Str := unescapeCedarFrom 0 inside

example : unescapeCedar (js "\\x41\\u\x7b1F600\x7d\\n") = some (js "A😀\n") := by decide

/-- The inside of a literal whose opening quote is read, up to the first quote no backslash stands
before; and the text after it. -/
def insideOfLiteral : Str → Option (Str × Str)
  | [] => none
  | [c] => if c = 0x22 then some ([], []) else none
  | c :: d :: s =>
    if c = 0x22 then some ([], d :: s)
    else if c = 0x5C then (insideOfLiteral s).map fun read => (c :: d :: read.1, read.2)
    else (insideOfLiteral (d :: s)).map fun read => (c :: read.1, read.2)

/-- The reference at the start of a text, and the text after it. -/
def readEntityUid (text : Str) : Option (CedarEntityUid × Str) := do
  let path := text.takeWhile (· ≠ 0x22)
  let type := path.take (path.length - 2)
  if path.drop (path.length - 2) = js "::" ∧ isTypePath type = true then
    let (inside, rest) ← insideOfLiteral (text.drop (path.length + 1))
    let id ← unescapeCedar inside
    pure ({ type, id }, rest)
  else none

end PolicyVerifier.Cedar
