import Mathlib.Algebra.Order.Floor.Ring
import Mathlib.Data.Rat.Floor
import PolicyVerifier.Js.Arithmetic
import PolicyVerifier.Server.JwtAuthenticator

/-!
# The time claims of a token that is decoded only

`decodeJwt` validates nothing, so the authenticator enforces the token's own lifetime itself. The payload is
the own properties of what was decoded, and the clock is what `Date.now()` reads.
-/

namespace PolicyVerifier.Server

open Js

/-- The class of an error of a claim. -/
inductive ClaimErrorName where
  | jwtClaimValidationFailed
  | jwtExpired
deriving DecidableEq

/-- An error of a claim: its class, its message, the payload, the claim and the reason. -/
structure ClaimError where
  name : ClaimErrorName
  message : Str
  payload : List (Str × Value)
  claim : Str
  reason : Str
deriving DecidableEq

/-- The claims every token must carry. -/
def requiredClaims : List Str := [js "exp"]

/-- The time claims, in the order they are type-checked. -/
inductive TimeClaim where
  | iat
  | nbf
  | exp
deriving DecidableEq

/-- The property a time claim is read from. -/
def TimeClaim.key : TimeClaim → Str
  | iat => js "iat"
  | nbf => js "nbf"
  | exp => js "exp"

/-- `payload[claim]`. -/
def claimValue (payload : List (Str × Value)) (claim : Str) : Value :=
  (Value.findProp claim payload).getD .undefined

/-- `Object.hasOwn(payload, claim)`. -/
def hasClaim (payload : List (Str × Value)) (claim : Str) : Bool := (Value.findProp claim payload).isSome

/-- `readTimeClaim`: none where the value is `undefined`. -/
def readTimeClaim (payload : List (Str × Value)) (claim : TimeClaim) : Except ClaimError (Option Number) :=
  match claimValue payload claim.key with
  | .undefined => .ok none
  | .num n => .ok (some n)
  | _ => .error
    { name := .jwtClaimValidationFailed
      message := js "\"" ++ claim.key ++ js "\" claim must be a number"
      payload
      claim := claim.key
      reason := js "invalid" }

/-- A time claim used as a number: `undefined` is `NaN`. -/
def asNumber (claim : Option Number) : Number := claim.getD .nan

/-- A check of a time claim that failed. -/
def checkFailed (name : ClaimErrorName) (message : Str) (payload : List (Str × Value)) (claim : TimeClaim) :
    ClaimError :=
  { name, message, payload, claim := claim.key, reason := js "check_failed" }

/-- `Math.floor(Date.now() / 1000)`. -/
def clockSeconds (dateNow : ℚ) : ℤ := ⌊dateNow / 1000⌋

/-- `assertTimeClaims`: presence first, then each claim in the order it is read. -/
def assertTimeClaims (payload : List (Str × Value)) (bounds : JwtTimeClaimBounds) (dateNow : ℚ) :
    Except ClaimError Unit :=
  let now : Number := .rat (clockSeconds dateNow)
  match (js "iat" :: requiredClaims).find? fun claim => !hasClaim payload claim with
  | some claim => .error
    { name := .jwtClaimValidationFailed
      message := js "missing required \"" ++ claim ++ js "\" claim"
      payload
      claim
      reason := js "missing" }
  | none => do
    let iat ← readTimeClaim payload .iat
    let nbf ← readTimeClaim payload .nbf
    if nbf.any fun nbf => (now.add bounds.clockTolerance).less nbf then
      .error (checkFailed .jwtClaimValidationFailed (js "\"nbf\" claim timestamp check failed") payload .nbf)
    else do
      let exp ← readTimeClaim payload .exp
      let age := now.sub (asNumber iat)
      if (asNumber exp).lessOrEqual (now.sub bounds.clockTolerance) then
        .error (checkFailed .jwtExpired (js "\"exp\" claim timestamp check failed") payload .exp)
      else if bounds.maxTokenAge.less (age.sub bounds.clockTolerance) then
        .error (checkFailed .jwtExpired
          (js "\"iat\" claim timestamp check failed (too far in the past)") payload .iat)
      else if age.less ((Number.rat 0).sub bounds.clockTolerance) then
        .error (checkFailed .jwtClaimValidationFailed
          (js "\"iat\" claim timestamp check failed (it should be in the past)") payload .iat)
      else .ok ()

end PolicyVerifier.Server
