import PolicyVerifier.Js.Text

/-!
# Decoding UTF-8 as it arrives

`new TextDecoder()`: bytes are decoded chunk by chunk, a character cut by the end of a chunk being held
until its other bytes come. Whatever is no UTF-8 is decoded as U+FFFD, so decoding never fails; one
leading byte order mark is dropped.
-/

namespace Js

/-- A decoder between two bytes: the character it is in (how many of its bytes are still to come, what
they have come to so far, and the bounds of the next one), and whether anything was decoded yet. -/
structure TextDecoder where
  needed : Nat := 0
  codePoint : Nat := 0
  lower : UInt8 := 0x80
  upper : UInt8 := 0xBF
  started : Bool := false

namespace TextDecoder

/-- The decoder outside a character. -/
def reset (d : TextDecoder) : TextDecoder := { started := d.started }

/-- A decoded code point; the first is dropped where it is the byte order mark. -/
def emit (d : TextDecoder) (codePoint : Nat) : TextDecoder × Str :=
  ({ d.reset with started := true },
    if !d.started && codePoint = 0xFEFF then [] else fromCodePoint codePoint)

/-- The first byte of a character. -/
def lead (d : TextDecoder) (b : UInt8) : TextDecoder × Str :=
  if b ≤ 0x7F then d.emit b.toNat
  else if 0xC2 ≤ b ∧ b ≤ 0xDF then ({ d.reset with needed := 1, codePoint := b.toNat % 0x20 }, [])
  else if 0xE0 ≤ b ∧ b ≤ 0xEF then
    ({ d.reset with
        needed := 2
        codePoint := b.toNat % 0x10
        lower := if b = 0xE0 then 0xA0 else 0x80
        upper := if b = 0xED then 0x9F else 0xBF }, [])
  else if 0xF0 ≤ b ∧ b ≤ 0xF4 then
    ({ d.reset with
        needed := 3
        codePoint := b.toNat % 8
        lower := if b = 0xF0 then 0x90 else 0x80
        upper := if b = 0xF4 then 0x8F else 0xBF }, [])
  else d.emit 0xFFFD

/-- One byte. A byte that cannot continue the character it comes in ends it, and is read again. -/
def byte (d : TextDecoder) (b : UInt8) : TextDecoder × Str :=
  if d.needed = 0 then d.lead b
  else if d.lower ≤ b ∧ b ≤ d.upper then
    let codePoint := d.codePoint * 0x40 + b.toNat % 0x40
    if d.needed = 1 then d.emit codePoint
    else ({ d with needed := d.needed - 1, codePoint, lower := 0x80, upper := 0xBF }, [])
  else
    let broken := d.emit 0xFFFD
    let next := broken.1.lead b
    (next.1, broken.2 ++ next.2)

/-- `decoder.decode(chunk, { stream: true })`. -/
def decode (d : TextDecoder) : List UInt8 → TextDecoder × Str
  | [] => (d, [])
  | b :: chunk =>
    let head := d.byte b
    let tail := decode head.1 chunk
    (tail.1, head.2 ++ tail.2)

/-- `decoder.decode()`: a character that is not whole at the end is broken. -/
def flush (d : TextDecoder) : Str := if d.needed = 0 then [] else (d.emit 0xFFFD).2

/-- Where a chunk ends makes no difference. -/
theorem decode_append (d : TextDecoder) (xs ys : List UInt8) :
    d.decode (xs ++ ys) =
      (((d.decode xs).1.decode ys).1, (d.decode xs).2 ++ ((d.decode xs).1.decode ys).2) := by
  induction xs generalizing d with
  | nil => rfl
  | cons b xs ih =>
    rw [List.cons_append, decode, ih]
    simp only [decode, List.append_assoc]

end TextDecoder

/-- Bytes decoded at once. -/
def decodeUtf8 (bytes : List UInt8) : Str :=
  let decoded := TextDecoder.decode {} bytes
  decoded.2 ++ decoded.1.flush

example : decodeUtf8 (0xEF :: 0xBB :: 0xBF :: utf8Bytes (js "é€😀")) = js "é€😀" := by decide

example : decodeUtf8 [0x61, 0xE2, 0x82, 0x41, 0xFF, 0xF0, 0x9F] = js "a�A��" := by decide

end Js
