import PolicyVerifier.Lib.OrderedMap
import PolicyVerifier.Server.Config.Hs256Rotation

/-!
# HS256 key resolution

The resolver a config gives: the bare secret, or a lookup among the secrets a rotation holds. What a
signature check of a token under a key comes to is the token's own.
-/

namespace PolicyVerifier.Server

open Js

/-- Key material. -/
abbrev KeyBytes := List UInt8

/-- One HS256 secret as key material; the current one does not expire. -/
structure Hs256Key where
  kid : Str
  key : KeyBytes
  expiresAtMs : Option ℚ := none
deriving DecidableEq

/-- A token as verification meets it: the `kid` of its header, `undefined` when it names none, and
the keys its signature verifies under as HS256. -/
structure JwsToken where
  kid : Value
  signedWith : KeyBytes → Bool

/-- Whether an entry is a verification key at a time. -/
def isLive (entry : Hs256Key) (nowMs : ℚ) : Bool :=
  match entry.expiresAtMs with
  | none => true
  | some expiresAtMs => decide (nowMs < expiresAtMs)

/-- What a resolver came to: the entries whose keys it tried, and the key it hands back, with the
entry on whose account, or the message of the `JWKSNoMatchingKey` it throws. -/
structure Resolution where
  tried : List Hs256Key := []
  result : Except Str (Option Hs256Key × KeyBytes)

/-- The loop over every configured secret: the entries tried, and the one that matched. -/
def tryEach (nowMs : ℚ) (token : JwsToken) : List Hs256Key → List Hs256Key × Option Hs256Key
  | [] => ([], none)
  | entry :: entries =>
    if isLive entry nowMs then
      if token.signedWith entry.key then ([entry], some entry)
      else
        let (tried, found) := tryEach nowMs token entries
        (entry :: tried, found)
    else tryEach nowMs token entries

/-- `createRotatingKeyResolver`, asked at a time. -/
def createRotatingKeyResolver (keys : List Hs256Key) (current : KeyBytes) (nowMs : ℚ)
    (token : JwsToken) : Resolution :=
  let byKid : OrderedMap Str Hs256Key := .ofList (keys.map fun entry => (entry.kid, entry))
  if token.kid ≠ .undefined then
    match token.kid.str?.bind byKid.get? with
    | none => { result := .error (js "no configured HS256 secret matches the token \"kid\"") }
    | some entry =>
      if isLive entry nowMs then { result := .ok (some entry, entry.key) }
      else
        { result := .error (js "the HS256 secret for the token \"kid\" is past its configured expiresAt") }
  else
    match tryEach nowMs token keys with
    | (tried, some entry) => { tried, result := .ok (some entry, entry.key) }
    -- nothing matched: the current key is handed back, and the signature fails under it
    | (tried, none) => { tried, result := .ok (none, current) }

/-- What an HS256 config resolves to. -/
inductive Hs256Resolver where
  | secret (key : KeyBytes)
  | rotating (keys : List Hs256Key) (current : KeyBytes)

/-- `toSecretKey`. -/
def toSecretKey (secret : Str) (encoding : SecretEncoding) : Except Str KeyBytes :=
  match decodeSecret secret encoding with
  | some bytes => .ok bytes
  | none => .error (js "an HS256 secret is not " ++ encoding.name ++ js ", which secretEncoding names")

/-- `!value`. -/
def isFalsy : Value → Bool
  | .undefined => true
  | .null => true
  | .bool b => !b
  | .num n => n = .rat 0 ∨ n = .negZero ∨ n = .nan
  | .str s => s.isEmpty
  | _ => false

section Factory

variable (dateParse : Str → Option ℚ)

/-- A previous secret as key material. -/
def previousKey (encoding : SecretEncoding) (previous : Hs256PreviousSecret) : Except Str Hs256Key := do
  let key ← toSecretKey previous.secret encoding
  pure { kid := previous.kid, key, expiresAtMs := dateParse previous.expiresAt }

/-- `HS256KeyResolverFactory`. -/
def hs256KeyResolverFactory (config : Hs256RotationConfig) : Except Str Hs256Resolver := do
  if isFalsy config.secret then .error (js "secret is required for HS256")
  else
    let rotation ← parseHs256Rotation dateParse config (js "oauth.jwt")
    match config.secret with
    | .str secret =>
      let current ← toSecretKey secret rotation.secretEncoding
      if rotation.kid = none ∧ rotation.previousSecrets = [] then pure (.secret current)
      else
        let previous ← rotation.previousSecrets.mapM (previousKey dateParse rotation.secretEncoding)
        -- the check leaves no previous secret without a current kid
        pure (.rotating ({ kid := rotation.kid.getD [], key := current } :: previous) current)
    | secret => .error (js "decodeSecret: secret must be a string, got " ++ secret.typeOf)

end Factory

/-- What verifying one token came to. -/
inductive Verdict where
  | accepted
  | noMatchingKey (message : Str)
  | signatureVerificationFailed
deriving DecidableEq

/-- One verification: what the resolver tried and handed back, and the verdict. -/
structure Verification where
  tried : List Hs256Key
  handed : Option Hs256Key
  verdict : Verdict

/-- `jwtVerify` under the rotating resolver, as to the signature. -/
def verifySignature (keys : List Hs256Key) (current : KeyBytes) (request : ℚ × JwsToken) :
    Verification :=
  let resolution := createRotatingKeyResolver keys current request.1 request.2
  match resolution.result with
  | .error message => { tried := resolution.tried, handed := none, verdict := .noMatchingKey message }
  | .ok (handed, key) =>
    { tried := resolution.tried, handed
      verdict := if request.2.signedWith key then .accepted else .signatureVerificationFailed }

end PolicyVerifier.Server
