import PolicyVerifier.Js.Text

/-!
# Caller authentication

The credential of the calling service, which is not the subject's: what `http.callerAuth` may hold, the
gate ahead of the decision endpoints, and which bind address needs none. SHA-256 is a parameter.
-/

namespace PolicyVerifier.Server

open Js

/-! ## The configuration -/

/-- `DEFAULT_CALLER_AUTH_HEADER`. -/
def defaultCallerAuthHeader : Str := js "x-caller-token"

/-- A character of `TOKEN`. -/
def isTokenCharacter (c : UInt16) : Bool :=
  (0x30 ≤ c && c ≤ 0x39) || (0x41 ≤ c && c ≤ 0x5A) || (0x61 ≤ c && c ≤ 0x7A) ||
    (js "!#$%&\x27*+.^_\x60|~-").contains c

/-- `hasControlCharacter`. -/
def hasControlCharacter (value : Str) : Bool := value.any fun c => (c < 0x20 && c != 0x09) || c == 0x7F

/-- `hasCharacterAboveLatin1`. -/
def hasCharacterAboveLatin1 (value : Str) : Bool := value.any fun c => 0xFF < c

/-- A space or a tab, which HTTP strips from around a header value. -/
def isBlank (c : UInt16) : Bool := c == 0x20 || c == 0x09

/-- `checkCallerAuthToken`: the credential, or why it is refused. -/
def checkCallerAuthToken : Value → Except Str Str
  | .str value =>
    if value = [] then .error (js "token must be a non-empty string")
    else if value.all isWhiteSpace then .error (js "token must not be blank")
    else if value.head?.any isBlank || value.getLast?.any isBlank then
      .error (js "token must not begin or end with a space or tab: HTTP strips them from a header value, so no request can present it")
    else if hasControlCharacter value then
      .error (js "token must not contain a control character, a trailing newline included: no request can carry one in a header value")
    else if hasCharacterAboveLatin1 value then
      .error (js "token must not contain a character above U+00FF: a header value\x27s bytes are read as Latin-1, so no request can present one")
    else .ok value
  | _ => .error (js "token must be a non-empty string")

/-- `checkCallerAuthHeader`: the header's name, or why it is refused. -/
def checkCallerAuthHeader : Value → Except Str Str
  | .str value =>
    if value = [] then .error (js "header must be a non-empty string")
    else if !value.all isTokenCharacter then
      .error (js "header must be an HTTP field name, RFC 9110 token characters only: no request carries a header named otherwise")
    else .ok value
  | _ => .error (js "header must be a non-empty string")

/-- `CallerAuthConfig`. -/
structure CallerAuthConfig where
  header : Str
  token : Str
deriving DecidableEq

/-- Where a failure is reported from. -/
structure CallerAuthErrorContext where
  caller : Str
  path : Str

/-- `checked`: a refusal names the caller and the path in front of its message. -/
def checkedField (context : CallerAuthErrorContext) (check : Except Str Str) : Except Str Str :=
  check.mapError fun message => context.caller ++ js ": " ++ context.path ++ js "." ++ message

/-- What `got …` says of a value that is no config object. -/
def describeKind : Value → Str
  | .null => js "null"
  | .arr _ _ => js "array"
  | value => value.typeOf

/-- `checkedHeader`: the header a block names, or the default. -/
def checkedHeader (context : CallerAuthErrorContext) (block : Value) : Except Str Str :=
  match block.field (js "header") with
  | .undefined => .ok defaultCallerAuthHeader
  | header => checkedField context (checkCallerAuthHeader header)

/-- What a block comes to behind that header: nothing, without a token. -/
def checkedToken (context : CallerAuthErrorContext) (block : Value) (header : Str) :
    Except Str (Option CallerAuthConfig) :=
  match block.field (js "token") with
  | .undefined => .ok none
  | token => do
    let token ← checkedField context (checkCallerAuthToken token)
    .ok (some { header, token })

/-- `resolveCallerAuth`: no block and no token are no gate. The header is checked whether or not there is a
token. -/
def resolveCallerAuth (http : Value) (context : CallerAuthErrorContext) : Except Str (Option CallerAuthConfig) :=
  match http.field (js "callerAuth") with
  | .undefined => .ok none
  | .obj ref props => do
    let header ← checkedHeader context (.obj ref props)
    checkedToken context (.obj ref props) header
  | raw =>
    .error (context.caller ++ js ": " ++ context.path ++ js " must be a config object, got " ++ describeKind raw)

/-! ## The gate -/

section Gate

variable {Digest : Type} [DecidableEq Digest] (sha256 : List UInt8 → Digest)

/-- `credentialMatches`: the digests of the two are compared, which are of one length. -/
def credentialMatches (presented expected : Str) : Bool :=
  sha256 (utf8Bytes presented) == sha256 (utf8Bytes expected)

/-- The gate as `createCallerAuthMiddleware` builds it: its own config is checked again. -/
structure CallerGate where
  header : Str
  token : Str

/-- `createCallerAuthMiddleware`. -/
def createCallerAuthMiddleware (config : CallerAuthConfig) : Except Str CallerGate := do
  let context := { caller := js "createCallerAuthMiddleware", path := js "config" }
  let header ← checkedField context (checkCallerAuthHeader (.str config.header))
  let token ← checkedField context (checkCallerAuthToken (.str config.token))
  .ok { header, token }

/-- Whether the gate lets a request through; `get` is `req.get`, in any case of the name. -/
def CallerGate.admits (gate : CallerGate) (get : Str → Option Str) : Bool :=
  match get gate.header with
  | some presented => credentialMatches sha256 presented gate.token
  | none => false

end Gate

end PolicyVerifier.Server
