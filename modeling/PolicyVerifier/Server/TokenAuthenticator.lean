import PolicyVerifier.Js.Text
import PolicyVerifier.Server.Routes.VerifyBatch
import PolicyVerifier.Server.TimeClaims

/-!
# Authenticating a bearer token

One call of the built-in authenticator: what is made of the `Authorization` header, the path the config
selects, the audience, the proof of possession this boundary cannot check, and what is logged of a refusal.
jose is a parameter.
-/

namespace PolicyVerifier.Server

open Js PolicyVerifier.Core

/-! ## What a verification fails with -/

/-- The own properties of a decoded payload. -/
abbrev Claims := List (Str × Value)

/-- The jose error classes the authenticator tells apart. -/
inductive JoseClass where
  | joseError
  | jwksTimeout
  | jwksInvalid
  | other
deriving DecidableEq

/-- An error as it was raised; `code` and `claim` where they are strings, and the payload jose attaches. -/
structure RaisedError where
  name : Str
  message : Str
  code : Option Str := none
  claim : Option Str := none
  payload : Option Claims := none

/-- What was caught: an error of jose's, another error, or no error at all. -/
inductive VerifyFailure where
  | jose (cls : JoseClass) (error : RaisedError)
  | foreign (error : RaisedError)
  | nonError (value : Value)

/-- The code of an error of a claim. -/
def ClaimErrorName.code : ClaimErrorName → Str
  | jwtClaimValidationFailed => js "ERR_JWT_CLAIM_VALIDATION_FAILED"
  | jwtExpired => js "ERR_JWT_EXPIRED"

/-- The name of an error of a claim. -/
def ClaimErrorName.word : ClaimErrorName → Str
  | jwtClaimValidationFailed => js "JWTClaimValidationFailed"
  | jwtExpired => js "JWTExpired"

/-- An error of a claim, thrown. -/
def ClaimError.thrown (e : ClaimError) : VerifyFailure :=
  .jose .other
    { name := e.name.word, message := e.message, code := some e.name.code, claim := some e.claim
      payload := some e.payload }

/-- `isVerificationUnavailable`. -/
def isVerificationUnavailable : VerifyFailure → Bool
  | .jose cls error => cls == .jwksTimeout || cls == .jwksInvalid || error.code == some (js "ERR_JOSE_GENERIC")
  | .foreign _ => true
  | .nonError _ => true

/-- What is logged of a rejection. -/
structure RejectionRecord where
  name : Str
  message : Option Str := none
  code : Option Str := none
  claim : Option Str := none
deriving DecidableEq

/-- The fields of an error that explain it. -/
def RaisedError.record (e : RaisedError) : RejectionRecord :=
  { name := e.name, message := some e.message, code := e.code, claim := e.claim }

/-- `describeRejection`. -/
def describeRejection : VerifyFailure → RejectionRecord
  | .jose _ error => error.record
  | .foreign error => error.record
  | .nonError _ => { name := js "NonError" }

/-! ## jose -/

/-- The options of `jwtVerify`. -/
structure JwtVerifyOptions where
  algorithms : List Str
  issuer : StringOrList
  audience : Option StringOrList
  typ : Option Str
  requiredClaims : List Str
  maxTokenAge : Number
  clockTolerance : Number

/-- The claim is one of the accepted values, or a list with one of them. -/
def Holds (claims : Claims) (claim : Str) (accepted : StringOrList) : Prop :=
  (∃ s, claimValue claims claim = .str s ∧ s ∈ accepted.values) ∨
    ∃ ref items s, claimValue claims claim = .arr ref items ∧ Value.str s ∈ items ∧ s ∈ accepted.values

/-- What `jwtVerify` promises of a payload it resolves with: whose signature, issuer, audience and type were
checked, and that the claims it was told to require are there. -/
structure Promised (Signed : List Str → Claims → Prop) (Typed : Str → Prop) (options : JwtVerifyOptions)
    (claims : Claims) : Prop where
  signed : Signed options.algorithms claims
  issuer : ∃ s, claimValue claims (js "iss") = .str s ∧ s ∈ options.issuer.values
  audience : ∀ accepted, options.audience = some accepted → Holds claims (js "aud") accepted
  typ : ∀ typ, options.typ = some typ → Typed typ
  required : ∀ claim ∈ js "iat" :: options.requiredClaims, hasClaim claims claim = true

/-- jose, with the clock as it is read, and what is documented of it. -/
structure Jose (κ : Type) where
  jwtVerify : Str → KeySource κ → JwtVerifyOptions → ℚ → Except VerifyFailure Claims
  decodeJwt : Str → Except VerifyFailure Claims
  /-- The token carries the claims under a signature the key verifies by one of the algorithms. -/
  Signed : Str → KeySource κ → List Str → Claims → Prop
  /-- The token's `typ` header is this type's. -/
  Typed : Str → Str → Prop
  verified : ∀ token key options now claims, jwtVerify token key options now = .ok claims →
    Promised (Signed token key) (Typed token) options claims

/-! ## The authenticator -/

/-- `UNPINNED_TOKEN_TYPE`. -/
def unpinnedTokenType : Str := js "*"

/-- `audienceMatches`. -/
def audienceMatches (value : Value) (accepted : StringOrList) : Bool :=
  match value with
  | .str s => accepted.values.contains s
  | .arr _ items =>
    items.all (fun entry => entry.str?.isSome) && items.any fun entry => entry.str?.any fun s => accepted.values.contains s
  | _ => false

/-- `assertAudienceClaim`. -/
def assertAudienceClaim (claims : Claims) (claim : Str) (accepted : StringOrList) : Except ClaimError Unit :=
  if !hasClaim claims claim then
    .error
      { name := .jwtClaimValidationFailed
        message := js "missing required \"" ++ claim ++ js "\" claim"
        payload := claims
        claim
        reason := js "missing" }
  else if !audienceMatches (claimValue claims claim) accepted then
    .error
      { name := .jwtClaimValidationFailed
        message := js "unexpected \"" ++ claim ++ js "\" claim value"
        payload := claims
        claim
        reason := js "check_failed" }
  else .ok ()

/-- A token bound to its sender is refused, whatever it is bound by. -/
def assertUnbound (claims : Claims) : Except ClaimError Unit :=
  if hasClaim claims (js "cnf") then
    .error
      { name := .jwtClaimValidationFailed
        message := js "Sender-constrained tokens are not supported on the Bearer authentication path"
        payload := claims
        claim := js "cnf"
        reason := js "check_failed" }
  else .ok ()

/-- The scheme of a header that is not empty, and the token after it. -/
def splitAuthorization (header : Str) : Str × Option Str :=
  let authHeader := trim header
  match indexOf (js " ") authHeader with
  | some (i + 1) => (authHeader.take (i + 1), some (trim (authHeader.drop (i + 2))))
  | _ => (authHeader, none)

/-- A line the authenticator writes. -/
inductive AuthenticatorLine where
  | verificationUnavailable (err : VerifyFailure)
  | tokenRejected (err : RejectionRecord)

/-- Who a token was accepted for: the claims with `authScheme`, and the token itself. -/
structure Authenticated where
  subject : SubjectAttributes
  credential : Str

/-- Why a header was refused. -/
structure AuthenticationRefusal where
  code : AuthenticationCode
  message : Str
deriving DecidableEq

def missingAuthorization : AuthenticationRefusal :=
  { code := .missingToken, message := js "Authorization header is missing" }

/-- The claims, spread into the subject bag. -/
def subjectOf (claims : Claims) (scheme : Str) : SubjectAttributes := fun key =>
  if key = js "authScheme" then .str scheme else claimValue claims key

section Authenticate

variable {κ : Type} (jose : Jose κ)

/-- The options a verifying config hands to `jwtVerify`: the audience is jose's where it is read from `aud`. -/
def VerifyingJwtConfig.options (config : VerifyingJwtConfig κ) : JwtVerifyOptions :=
  { algorithms := config.resolver.algorithms
    issuer := config.issuer
    audience := if config.audienceClaim = defaultAudienceClaim then some config.audience else none
    typ := if config.tokenType = unpinnedTokenType then none else some config.tokenType
    requiredClaims
    maxTokenAge := config.bounds.maxTokenAge
    clockTolerance := config.bounds.clockTolerance }

/-- What the path of the config makes of a token. -/
def decodeToken (authenticator : JwtAuthenticator κ) (token : Str) (now : ℚ) : Except VerifyFailure Claims :=
  match authenticator with
  | .verifying config => do
    let claims ← jose.jwtVerify token config.resolver.key config.options now
    if config.audienceClaim = defaultAudienceClaim then .ok claims
    else do
      (assertAudienceClaim claims config.audienceClaim config.audience).mapError ClaimError.thrown
      .ok claims
  | .decoding bounds => do
    let claims ← jose.decodeJwt token
    (assertTimeClaims claims bounds now).mapError ClaimError.thrown
    .ok claims

/-- The claims of a token that is not bound to its sender. -/
def bearerClaims (authenticator : JwtAuthenticator κ) (token : Str) (now : ℚ) : Except VerifyFailure Claims := do
  let claims ← decodeToken jose authenticator token now
  (assertUnbound claims).mapError ClaimError.thrown
  .ok claims

/-- `authenticate`, and what it logs. -/
def JwtAuthenticator.authenticate (authenticator : JwtAuthenticator κ) (header : Option Str) (now : ℚ) :
    Except AuthenticationRefusal Authenticated × List AuthenticatorLine :=
  match header with
  | none | some [] => (.error missingAuthorization, [])
  | some header =>
    match splitAuthorization header with
    | (scheme, token) =>
      if toLowerCase scheme ≠ js "bearer" then
        (.error { code := .unsupportedScheme, message := js "Unsupported authorization scheme: " ++ scheme }, [])
      else
        match token with
        | none | some [] => (.error missingAuthorization, [])
        | some token =>
          match bearerClaims jose authenticator token now with
          | .ok claims => (.ok { subject := subjectOf claims scheme, credential := token }, [])
          | .error cause =>
            if isVerificationUnavailable cause then
              (.error { code := .verificationUnavailable, message := js "Token verification is unavailable" },
                [.verificationUnavailable cause])
            else
              (.error { code := .invalidToken, message := js "Invalid token" },
                [.tokenRejected (describeRejection cause)])

end Authenticate

end PolicyVerifier.Server
