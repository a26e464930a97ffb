import PolicyVerifier.Server.Config.Hs256Rotation

/-!
# The `oauth.jwt` block, as a config file is read

What the schema makes of a block whose keys each hold a value of the key's type. The built-ins that
read a text (`Number`, `String`, `Date.parse`, `URL`) are parameters.
-/

namespace PolicyVerifier.Server

open Js

/-- What `new URL` reads of a text, as far as it is asked. -/
structure Url where
  protocol : Str
  hostname : Str
deriving DecidableEq

/-- The built-ins a config is read with: none is `NaN`, and a text that is no URL. -/
structure Builtins where
  dateParse : Str → Option ℚ
  number : Str → Number
  string : Value → Str
  url : Str → Option Url

/-! ## Numeric knobs -/

/-- How one numeric knob is read. -/
structure BoundSpec where
  field : Str
  fallback : Nat
  minimum : Nat
  maximum : Option Nat := none
  unit : Str

/-- What a timer can hold. -/
def maxTimerMs : Nat := 2147483647

def jwksTimeoutMs : BoundSpec :=
  { field := js "jwksTimeoutMs", fallback := 5000, minimum := 1, maximum := some maxTimerMs
    unit := js "milliseconds" }

def jwksCooldownMs : BoundSpec :=
  { field := js "jwksCooldownMs", fallback := 30000, minimum := 0, unit := js "milliseconds" }

def jwksCacheMaxAgeMs : BoundSpec :=
  { field := js "jwksCacheMaxAgeMs", fallback := 600000, minimum := 1, unit := js "milliseconds" }

def maxTokenAgeSeconds : BoundSpec :=
  { field := js "maxTokenAgeSeconds", fallback := 86400, minimum := 1, unit := js "seconds" }

def clockToleranceSeconds : BoundSpec :=
  { field := js "clockToleranceSeconds", fallback := 0, minimum := 0, maximum := some 300
    unit := js "seconds" }

/-- `describeRange`. -/
def describeRange (spec : BoundSpec) : Str :=
  match spec.maximum with
  | some maximum =>
    js "an integer between " ++ decimal spec.minimum ++ js " and " ++ decimal maximum ++ js " " ++
      spec.unit
  | none =>
    (if 0 < spec.minimum then js "a positive integer" else js "a non-negative integer") ++
      js " number of " ++ spec.unit

/-- `Number.isInteger(numeric)` and within the range. -/
def inRange (spec : BoundSpec) (numeric : Number) : Bool :=
  match numeric.toInt? with
  | none => false
  | some n => decide ((spec.minimum : Int) ≤ n) &&
      (spec.maximum.all fun maximum => decide (n ≤ (maximum : Int)))

section Bounds

variable (builtins : Builtins)

/-- `describeValue`. -/
def describeValue : Value → Str
  | .str s => Json.quote s
  | .arr _ _ => js "an array"
  | .obj _ _ => js "an object"
  | v => builtins.string v

/-- `resolveBound`. -/
def resolveBound (value : Value) (spec : BoundSpec) (path : Str) : Except Str Number :=
  if value = .undefined then .ok (.rat spec.fallback)
  else
    let numeric := writtenNumber builtins.number value
    if inRange spec numeric then .ok numeric
    else .error (path ++ js "." ++ spec.field ++ js " must be " ++ describeRange spec ++ js ", got " ++
      describeValue builtins value)

end Bounds

/-! ## The other shared checks -/

/-- The default `audienceClaim`. -/
def defaultAudienceClaim : Str := js "aud"

/-- `checkAudienceClaim`. -/
def checkAudienceClaim : Value → Except Str Str
  | .undefined => .ok defaultAudienceClaim
  | .str s => if s = [] then .error (js "audienceClaim must be a non-empty string") else .ok s
  | _ => .error (js "audienceClaim must be a non-empty string")

/-- `[0-9]`. -/
def isDecimalDigit (c : UInt16) : Bool := 0x30 ≤ c && c ≤ 0x39

/-- A number from 0 to 255, without leading zeros. -/
def isOctet : Str → Bool
  | [c] => isDecimalDigit c
  | [c, d] => (0x31 ≤ c && c ≤ 0x39) && isDecimalDigit d
  | [c, d, e] =>
    (c == 0x31 && isDecimalDigit d && isDecimalDigit e) ||
      (c == 0x32 && (0x30 ≤ d && d ≤ 0x34) && isDecimalDigit e) ||
      (c == 0x32 && d == 0x35 && (0x30 ≤ e && e ≤ 0x35))
  | _ => false

/-- `LOOPBACK_IPV4.test(hostname)`. -/
def isLoopbackIpv4 (hostname : Str) : Bool :=
  match hostname.splitOn 0x2E with
  | [a, b, c, d] => a == js "127" && isOctet b && isOctet c && isOctet d
  | _ => false

/-- `isLoopbackHost`. -/
def isLoopbackHost (hostname : Str) : Bool :=
  hostname == js "localhost" || hostname == js "[::1]" || isLoopbackIpv4 hostname

/-- `checkJwksUri`: the parsed URL, or why it is refused. -/
def checkJwksUri (builtins : Builtins) (jwksUri : Str) : Except Str Url :=
  match builtins.url jwksUri with
  | none => .error (js "jwksUri must be an absolute URL, got " ++ Json.quote jwksUri)
  | some url =>
    if url.protocol = js "https:" ∨ (url.protocol = js "http:" ∧ isLoopbackHost url.hostname = true) then
      .ok url
    else
      .error (js "jwksUri must use https; http is accepted only for loopback hosts (localhost, 127.0.0.0/8, [::1]), got " ++
        Json.quote jwksUri)

/-! ## The block -/

inductive JwtMode where
  | verify
  | insecureDecode
deriving DecidableEq

/-- A string, or a list of them. -/
inductive StringOrList where
  | one (s : Str)
  | many (ss : List Str)

/-- The values of it. -/
def StringOrList.values : StringOrList → List Str
  | one s => [s]
  | many ss => ss

/-- A block whose present keys each hold a value of the key's type; a key whose value is read by a
shared check holds any value, `undefined` when it is absent. `otherKeys` are the keys the schema does
not declare. -/
structure JwtBlock where
  algorithm : Option Str := none
  secret : Option Str := none
  secretEncoding : Value := .undefined
  kid : Option Str := none
  previousSecrets : Option (List Hs256PreviousSecret) := none
  jwksUri : Option Str := none
  jwksTimeoutMs : Value := .undefined
  jwksCooldownMs : Value := .undefined
  jwksCacheMaxAgeMs : Value := .undefined
  publicKey : Option Str := none
  publicKeyPath : Option Str := none
  mode : Option JwtMode := none
  issuer : Option StringOrList := none
  audience : Option StringOrList := none
  tokenType : Option Str := none
  audienceClaim : Value := .undefined
  maxTokenAgeSeconds : Value := .undefined
  clockToleranceSeconds : Value := .undefined
  otherKeys : List Str := []

/-- A string that may be absent, as a value. -/
def optionalValue (s : Option Str) : Value := (s.map Value.str).getD .undefined

/-- A previous secret, as the object it is written as. -/
def previousValue (previous : Hs256PreviousSecret) : Value :=
  .obj 0
    [(js "kid", .str previous.kid), (js "secret", .str previous.secret),
      (js "expiresAt", .str previous.expiresAt)]

/-- What the rotation check reads of a block. -/
def JwtBlock.rotationConfig (block : JwtBlock) : Hs256RotationConfig :=
  { secret := optionalValue block.secret
    kid := optionalValue block.kid
    previousSecrets :=
      (block.previousSecrets.map fun entries => Value.list (entries.map previousValue)).getD .undefined
    secretEncoding := block.secretEncoding }

/-- `JWT_MODE_REMOVED_KEYS`. -/
def jwtModeRemovedKeys : List Str := [js "validate", js "allowInsecureDecode"]

/-- `JWT_MODE_MIGRATION_MESSAGE`. -/
def jwtModeMigrationMessage : Str :=
  js "oauth.jwt.validate/allowInsecureDecode were replaced by oauth.jwt.mode; set mode = \"verify\" or the explicit \"insecure-decode\""

/-- A text that is there and not empty. -/
def isTruthy (s : Option Str) : Bool := s.any fun s => s ≠ []

/-- The built-in asymmetric algorithms. -/
def asymmetricAlgorithms : List Str := [js "RS256", js "ES256", js "EdDSA"]

/-- The built-in algorithms. -/
def builtinAlgorithms : List Str := js "HS256" :: asymmetricAlgorithms

/-! ## The schema -/

/-- An issue of the schema, at its path inside the block. -/
abbrev SchemaIssue := Hs256RotationIssue

/-- An issue at one key. -/
def issueAt (key message : Str) : SchemaIssue := { path := [.key key], message }

section Schema

variable (builtins : Builtins)

/-- A knob read through `boundedNumber`. -/
def boundedNumber (value : Value) (spec : BoundSpec) : List SchemaIssue :=
  match resolveBound builtins value spec (js "oauth.jwt") with
  | .ok _ => []
  | .error message => [issueAt spec.field message]

/-- The issues of the knobs, which are read before anything else. -/
def knobIssues (block : JwtBlock) : List SchemaIssue :=
  boundedNumber builtins block.jwksTimeoutMs jwksTimeoutMs ++
  boundedNumber builtins block.jwksCooldownMs jwksCooldownMs ++
  boundedNumber builtins block.jwksCacheMaxAgeMs jwksCacheMaxAgeMs ++
  boundedNumber builtins block.maxTokenAgeSeconds maxTokenAgeSeconds ++
  boundedNumber builtins block.clockToleranceSeconds clockToleranceSeconds

/-- The issues of the removed keys. -/
def staleIssues (block : JwtBlock) : List SchemaIssue :=
  (jwtModeRemovedKeys.filter fun key => key ∈ block.otherKeys).map fun key =>
    issueAt key jwtModeMigrationMessage

/-- The issue of a shared check that refuses a value. -/
def sharedIssue {α : Type} (key : Str) : Except Str α → List SchemaIssue
  | .ok _ => []
  | .error message => [issueAt key message]

/-- The issue of a list that must name something. -/
def presenceIssue (key : Str) (value : Option StringOrList) : List SchemaIssue :=
  let values : List (Option Str) :=
    match value with
    | none => [none]
    | some given => given.values.map some
  if values = [] ∨ (values.any fun v => !isTruthy v) = true then
    [issueAt key (key ++ js " is required when mode is \"verify\" (RFC 9068 §4)")]
  else []

/-- The issues of the HS256 key material. -/
def hs256Issues (block : JwtBlock) : List SchemaIssue :=
  (if isTruthy block.secret then []
    else [{ path := [], message := js "secret is required for HS256" }]) ++
  match checkHs256Rotation builtins.dateParse block.rotationConfig with
  | .ok _ => []
  | .error issues => issues

/-- The issues of the asymmetric key material. -/
def asymmetricIssues (algorithm : Str) (block : JwtBlock) : List SchemaIssue :=
  (if isTruthy block.jwksUri || isTruthy block.publicKey || isTruthy block.publicKeyPath then []
    else [{ path := []
            message := js "jwksUri or publicKey/publicKeyPath is required for " ++ algorithm }]) ++
  if block.previousSecrets.isSome then
    [issueAt (js "previousSecrets")
      (js "previousSecrets is not valid for " ++ algorithm ++ js " — it is the HS256 rotation field. Asymmetric keys rotate through the JWKS at jwksUri, which carries every key the issuer currently publishes.")]
  else []

/-- The issue of a JWKS URI that is there. -/
def jwksUriIssues (block : JwtBlock) : List SchemaIssue :=
  match block.jwksUri with
  | none => []
  | some jwksUri => sharedIssue (js "jwksUri") (checkJwksUri builtins jwksUri)

/-- The issues of a block under `mode = "verify"`. -/
def verifyIssues (algorithm tokenType : Str) (block : JwtBlock) : List SchemaIssue :=
  presenceIssue (js "issuer") block.issuer ++ presenceIssue (js "audience") block.audience ++
  (if tokenType = [] then
    [issueAt (js "tokenType") (js "tokenType must not be empty when mode is \"verify\" (RFC 9068 §4)")]
    else []) ++
  (if algorithm = js "HS256" then hs256Issues builtins block else []) ++
  (if algorithm ∈ asymmetricAlgorithms then asymmetricIssues algorithm block else []) ++
  jwksUriIssues builtins block

/-- The `superRefine` of the block, over the defaults of its keys. -/
def superRefine (algorithm tokenType : Str) (mode : JwtMode) (block : JwtBlock) : List SchemaIssue :=
  if staleIssues block ≠ [] then staleIssues block
  else
    sharedIssue (js "audienceClaim") (checkAudienceClaim block.audienceClaim) ++
    (if mode ≠ .insecureDecode ∧ algorithm = js "HS256" then []
      else sharedIssue (js "secretEncoding") (checkSecretEncoding block.secretEncoding)) ++
    (if mode = .insecureDecode then [] else verifyIssues builtins algorithm tokenType block)

/-- A knob once it is read. -/
def knobValue (value : Value) (spec : BoundSpec) : Value :=
  match resolveBound builtins value spec (js "oauth.jwt") with
  | .ok numeric => .num numeric
  | .error _ => value

/-- `OAuthJwtSchema`: the block with its defaults, or the issues. The refinement runs only where every
knob was read. -/
def oauthJwtSchema (block : JwtBlock) : Except (List SchemaIssue) JwtBlock :=
  let algorithm := block.algorithm.getD (js "HS256")
  let tokenType := block.tokenType.getD (js "at+jwt")
  let mode := block.mode.getD .verify
  if knobIssues builtins block ≠ [] then .error (knobIssues builtins block)
  else if superRefine builtins algorithm tokenType mode block ≠ [] then
    .error (superRefine builtins algorithm tokenType mode block)
  else
    .ok { block with
      algorithm := some algorithm
      tokenType := some tokenType
      mode := some mode
      jwksTimeoutMs := knobValue builtins block.jwksTimeoutMs jwksTimeoutMs
      jwksCooldownMs := knobValue builtins block.jwksCooldownMs jwksCooldownMs
      jwksCacheMaxAgeMs := knobValue builtins block.jwksCacheMaxAgeMs jwksCacheMaxAgeMs
      maxTokenAgeSeconds := knobValue builtins block.maxTokenAgeSeconds maxTokenAgeSeconds
      clockToleranceSeconds := knobValue builtins block.clockToleranceSeconds clockToleranceSeconds
      audienceClaim :=
        .str ((checkAudienceClaim block.audienceClaim).toOption.getD defaultAudienceClaim)
      secretEncoding :=
        .str ((checkSecretEncoding block.secretEncoding).toOption.getD defaultSecretEncoding).name }

end Schema

end PolicyVerifier.Server
