import PolicyVerifier.Js.Strings
import PolicyVerifier.Js.Text

/-!
# HS256 secrets

How a secret string becomes key bytes, and how much key material it is taken to carry. A secret is
measured by the smallest of its plausible readings, and read by the one the config names.
-/

namespace PolicyVerifier.Server

open Js

/-- One way of reading a secret string as bytes. -/
inductive SecretEncoding where
  | utf8
  | hex
  | base64
deriving DecidableEq

/-- The word a config names a reading by. -/
def SecretEncoding.name : SecretEncoding → Str
  | utf8 => js "utf8"
  | hex => js "hex"
  | base64 => js "base64"

/-- The readings `secretEncoding` accepts. -/
def secretEncodings : List SecretEncoding := [.utf8, .hex, .base64]

/-- The reading when `secretEncoding` is absent. -/
def defaultSecretEncoding : SecretEncoding := .utf8

/-- `checkSecretEncoding`: the reading to apply, or why the value is refused. -/
def checkSecretEncoding (value : Value) : Except Str SecretEncoding :=
  match value with
  | .undefined => .ok defaultSecretEncoding
  | value =>
    match secretEncodings.find? fun e => value = .str e.name with
    | some e => .ok e
    | none => .error (js "secretEncoding must be one of " ++
        join (js ", ") (secretEncodings.map fun e => Json.quote e.name))

/-! ## Decoding -/

/-- `[0-9a-fA-F]`. -/
def isHexLetter (c : UInt16) : Bool := isHexDigit c || (0x41 ≤ c && c ≤ 0x46)

/-- The number a digit of `[0-9a-fA-F]` stands for. -/
def hexLetterValue (c : UInt16) : Nat :=
  if 0x41 ≤ c ∧ c ≤ 0x46 then c.toNat - 0x37 else hexDigitValue c

/-- The bytes of whole pairs of hexadecimal digits. -/
def hexBytes : Str → List UInt8
  | c :: d :: s => UInt8.ofNat (hexLetterValue c * 16 + hexLetterValue d) :: hexBytes s
  | _ => []

/-- `HEX.test(s)`: one pair of hexadecimal digits or more. -/
def isHexPairs (s : Str) : Bool := s.length % 2 == 0 && !s.isEmpty && s.all isHexLetter

/-- `[A-Za-z0-9+/]`. -/
def isBase64Letter (c : UInt16) : Bool :=
  (0x41 ≤ c && c ≤ 0x5A) || (0x61 ≤ c && c ≤ 0x7A) || (0x30 ≤ c && c ≤ 0x39) || c == 0x2B || c == 0x2F

/-- `[A-Za-z0-9_-]`. -/
def isBase64UrlLetter (c : UInt16) : Bool :=
  (0x41 ≤ c && c ≤ 0x5A) || (0x61 ≤ c && c ≤ 0x7A) || (0x30 ≤ c && c ≤ 0x39) || c == 0x5F || c == 0x2D

/-- `STRICT_BASE64.test(s)`: groups of four, of which the last may be padded. -/
def isStrictBase64 : Str → Bool
  | [a, b, c, d] =>
    isBase64Letter a && isBase64Letter b &&
      ((isBase64Letter c && (isBase64Letter d || d == 0x3D)) || (c == 0x3D && d == 0x3D))
  | a :: b :: c :: d :: s => [a, b, c, d].all isBase64Letter && isStrictBase64 s
  | _ => false

/-- The six bits a letter of the alphabet stands for. -/
def base64Value (c : UInt16) : Nat :=
  if 0x41 ≤ c ∧ c ≤ 0x5A then c.toNat - 0x41
  else if 0x61 ≤ c ∧ c ≤ 0x7A then c.toNat - 0x47
  else if 0x30 ≤ c ∧ c ≤ 0x39 then c.toNat + 4
  else if c = 0x2B then 62
  else 63

/-- The bytes of groups of four, of which the last may be padded. -/
def base64Bytes : Str → List UInt8
  | a :: b :: c :: d :: s =>
    let first := UInt8.ofNat (base64Value a * 4 + base64Value b / 16)
    if c = 0x3D then [first]
    else
      let second := UInt8.ofNat (base64Value b % 16 * 16 + base64Value c / 4)
      if d = 0x3D then [first, second]
      else first :: second :: UInt8.ofNat (base64Value c % 4 * 64 + base64Value d) :: base64Bytes s
  | _ => []

/-- `decodeSecret`, on a string; none when it is not of that reading. -/
def decodeSecret (secret : Str) : SecretEncoding → Option (List UInt8)
  | .utf8 => some (utf8Bytes secret)
  | .hex => if isHexPairs secret then some (hexBytes secret) else none
  | .base64 => if isStrictBase64 secret then some (base64Bytes secret) else none

/-! ## Measuring -/

/-- What a secret must carry at least. -/
def minSecretEntropyBytes : Nat := 32

/-- `hexByteLength`. -/
def hexByteLength (value : Str) : Option Nat :=
  if value.length = 0 ∨ value.length % 2 ≠ 0 then none
  else if value.all isHexLetter then some (value.length / 2)
  else none

/-- `base64ByteLength`: base64 or base64url, padded as its length calls for or not at all. -/
def base64ByteLength (value : Str) : Option Nat :=
  let padding := (value.reverse.takeWhile fun c => c = 0x3D).length
  let body := value.take (value.length - padding)
  let remainder := body.length % 4
  if 2 < padding then none
  else if body.length = 0 then none
  else if !body.all isBase64Letter && !body.all isBase64UrlLetter then none
  else if remainder = 1 then none
  else if 0 < padding ∧ remainder ≠ 4 - padding then none
  else some (body.length * 3 / 4)

/-- How many bytes of key material a secret carries: the smallest plausible reading. -/
def measureSecretEntropyBytes (secret : Str) : Nat :=
  ([hexByteLength secret, base64ByteLength secret].filterMap id).foldl min (utf8Length secret)

/-- Why a secret misses the floor; never the secret. -/
def describeWeakSecret (field : Str) (actualBytes : Nat) (encoding : SecretEncoding) : Str :=
  let floor := decimal minSecretEntropyBytes
  let carries := field ++ js " must carry at least " ++ floor ++ js " bytes (" ++
    decimal (minSecretEntropyBytes * 8) ++ js " bits) of key material, but carries " ++
    decimal actualBytes
  if encoding ≠ .utf8 then
    carries ++ js " once read as " ++ encoding.name ++
      js " (secretEncoding) — generate one with \x60openssl rand -" ++ encoding.name ++ js " " ++
      floor ++ js "\x60."
  else
    carries ++ js " — generate one with \x60openssl rand -hex " ++ floor ++
      js "\x60. Hex and base64 values are measured on their DECODED length, so a " ++ floor ++
      js "-character hex string counts as only " ++ decimal (minSecretEntropyBytes / 2) ++ js " bytes."

end PolicyVerifier.Server
