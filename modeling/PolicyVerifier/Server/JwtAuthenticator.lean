import PolicyVerifier.Server.Config.JwtBlock
import PolicyVerifier.Server.KeyResolvers

/-!
# The built-in authenticator, built from a block

The second boundary: the factory re-checks a block that may never have met the schema, resolves its
key material, and builds the authenticator. Importing a PEM text and reading a key file are
parameters.
-/

namespace PolicyVerifier.Server

open Js

/-- How a key is read: `importSPKI` of a PEM text under an algorithm, and the text of a file. -/
structure KeyImport (κ : Type) where
  importSPKI : Str → Str → Except Str κ
  readFile : Str → Except Str Str

/-- The bounds of a JWKS fetch. -/
structure JwksFetchBounds where
  timeoutDuration : Number
  cooldownDuration : Number
  cacheMaxAge : Number

/-- What verifies a token's signature. -/
inductive KeySource (κ : Type) where
  | hs256 (resolver : Hs256Resolver)
  | jwks (url : Url) (bounds : JwksFetchBounds)
  | publicKey (key : κ)

/-- A resolved key, and the algorithms it is held to. -/
structure KeyResolver (κ : Type) where
  key : KeySource κ
  algorithms : List Str

/-- The bounds on a token's own lifetime. -/
structure JwtTimeClaimBounds where
  maxTokenAge : Number
  clockTolerance : Number

/-- What the authenticator verifies a token by. -/
structure VerifyingJwtConfig (κ : Type) where
  resolver : KeyResolver κ
  issuer : StringOrList
  audience : StringOrList
  audienceClaim : Str
  tokenType : Str
  bounds : JwtTimeClaimBounds

/-- The authenticator, verifying or decoding only. -/
inductive JwtAuthenticator (κ : Type) where
  | verifying (config : VerifyingJwtConfig κ)
  | decoding (bounds : JwtTimeClaimBounds)

/-- The path and the caller the messages name. -/
def jwtPath : Str := js "oauth.jwt"

section Factory

variable {κ : Type} (builtins : Builtins) (keys : KeyImport κ)

/-- `resolveJwksFetchBounds`. -/
def resolveJwksFetchBounds (block : JwtBlock) : Except Str JwksFetchBounds := do
  let timeoutDuration ← resolveBound builtins block.jwksTimeoutMs jwksTimeoutMs jwtPath
  let cooldownDuration ← resolveBound builtins block.jwksCooldownMs jwksCooldownMs jwtPath
  let cacheMaxAge ← resolveBound builtins block.jwksCacheMaxAgeMs jwksCacheMaxAgeMs jwtPath
  pure { timeoutDuration, cooldownDuration, cacheMaxAge }

/-- `resolveAsymmetric`: a JWKS URI, else an inline PEM text, else a PEM file. -/
def resolveAsymmetric (algorithm : Str) (block : JwtBlock) : Except Str (KeyResolver κ) :=
  if isTruthy block.jwksUri then do
    let url ← checkJwksUri builtins (block.jwksUri.getD [])
    let bounds ← resolveJwksFetchBounds builtins block
    pure { key := .jwks url bounds, algorithms := [algorithm] }
  else if isTruthy block.publicKey then do
    let key ← keys.importSPKI (block.publicKey.getD []) algorithm
    pure { key := .publicKey key, algorithms := [algorithm] }
  else if isTruthy block.publicKeyPath then do
    let pem ← keys.readFile (block.publicKeyPath.getD [])
    let key ← keys.importSPKI pem algorithm
    pure { key := .publicKey key, algorithms := [algorithm] }
  else .error (js "jwksUri or publicKey/publicKeyPath is required for " ++ algorithm)

/-- The registry of the built-in key resolvers, asked for one. -/
def resolveKey (algorithm : Str) (block : JwtBlock) : Except Str (KeyResolver κ) :=
  if algorithm = js "HS256" then do
    let resolver ← hs256KeyResolverFactory builtins.dateParse block.rotationConfig
    pure { key := .hs256 resolver, algorithms := [js "HS256"] }
  else if algorithm ∈ asymmetricAlgorithms then resolveAsymmetric builtins keys algorithm block
  else .error (js "Registry: \"" ++ algorithm ++ js "\" is not registered")

/-- `resolveJwtTimeClaimBounds`. -/
def resolveJwtTimeClaimBounds (maxTokenAge clockTolerance : Value) (path : Str) :
    Except Str JwtTimeClaimBounds := do
  let maxTokenAge ← resolveBound builtins maxTokenAge maxTokenAgeSeconds path
  let clockTolerance ← resolveBound builtins clockTolerance clockToleranceSeconds path
  pure { maxTokenAge, clockTolerance }

/-- `isPresent`. -/
def isPresent : Option StringOrList → Bool
  | none => false
  | some (.one s) => s ≠ []
  | some (.many ss) => ss ≠ [] && ss.all fun s => s ≠ []

/-- `assertVerifyRouterJwtConfig`, on a config that verifies. -/
def assertVerifyRouterJwtConfig (issuer audience : Option StringOrList) (tokenType : Option Str)
    (audienceClaim : Value) (caller path condition : Str) :
    Except Str (StringOrList × StringOrList × Str) := do
  let missing (field : Str) : Str := caller ++ js ": " ++ path ++ js "." ++ field ++
    js " is required when " ++ condition ++ js " (RFC 9068 §4)"
  if !isPresent issuer then .error (missing (js "issuer"))
  else if !isPresent audience then .error (missing (js "audience"))
  else if !isTruthy tokenType then .error (missing (js "tokenType"))
  else
    match checkAudienceClaim audienceClaim, issuer, audience, tokenType with
    | .error message, _, _, _ => .error (caller ++ js ": " ++ path ++ js "." ++ message)
    | .ok _, some issuer, some audience, some tokenType => pure (issuer, audience, tokenType)
    | .ok _, _, _, _ => .error (missing (js "tokenType"))

/-- `createTokenAuthenticator`, which checks what it is given once more. -/
def createTokenAuthenticator : JwtAuthenticator κ → Except Str (JwtAuthenticator κ)
  | .verifying config => do
    let _ ← assertVerifyRouterJwtConfig (some config.issuer) (some config.audience)
      (some config.tokenType) (.str config.audienceClaim) (js "createTokenAuthenticator") (js "jwt")
      (js "jwt.validate is true")
    let _ ← resolveJwtTimeClaimBounds builtins (.num config.bounds.maxTokenAge)
      (.num config.bounds.clockTolerance) (js "jwt")
    pure (.verifying config)
  | .decoding bounds => do
    let _ ← resolveJwtTimeClaimBounds builtins (.num bounds.maxTokenAge) (.num bounds.clockTolerance)
      (js "jwt")
    pure (.decoding bounds)

/-- A refusal of a shared check, as the factory says it. -/
def refusedAt {α : Type} : Except Str α → Except Str α
  | .ok a => .ok a
  | .error message => .error (js "createApp: oauth.jwt." ++ message)

/-- `JwtTokenAuthenticatorFactory`. -/
def jwtTokenAuthenticatorFactory (block : JwtBlock) : Except Str (JwtAuthenticator κ) := do
  if jwtModeRemovedKeys.any fun key => key ∈ block.otherKeys then
    .error (js "createApp: " ++ jwtModeMigrationMessage)
  else
    let bounds ← resolveJwtTimeClaimBounds builtins block.maxTokenAgeSeconds
      block.clockToleranceSeconds jwtPath
    let audienceClaim ← refusedAt (checkAudienceClaim block.audienceClaim)
    let _ ← refusedAt (checkSecretEncoding block.secretEncoding)
    match block.mode.getD .verify with
    | .verify => do
      let (issuer, audience, tokenType) ← assertVerifyRouterJwtConfig block.issuer block.audience
        block.tokenType block.audienceClaim (js "createApp") jwtPath
        (js "oauth.jwt.mode is \"verify\"")
      if !isTruthy block.algorithm then
        .error (js "createApp: oauth.jwt.algorithm must be a non-empty string")
      else
        let resolver ← resolveKey builtins keys (block.algorithm.getD []) block
        createTokenAuthenticator builtins
          (.verifying { resolver, issuer, audience, audienceClaim, tokenType, bounds })
    | .insecureDecode => createTokenAuthenticator builtins (.decoding bounds)

end Factory

end PolicyVerifier.Server
