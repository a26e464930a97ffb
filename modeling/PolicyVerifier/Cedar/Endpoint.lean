import Mathlib.Data.List.DropRight
import PolicyVerifier.Cedar.HttpEngine
import PolicyVerifier.Js.NumberText
import PolicyVerifier.Server.Config.JwtBlock

/-!
# The settings of an agent

Where an agent is, what identifies it, and the rest a load reads out of its configuration and the
environment. The platform's readers (`URL`, `Number`, `String`, `JSON.stringify` of a number) are parameters.
-/

namespace PolicyVerifier.Cedar

open Js PolicyVerifier.Core

/-- What `new URL(text)` reads. -/
structure Url where
  protocol : Str
  hostname : Str
  port : Str := []
  pathname : Str
  origin : Str
  search : Str := []
  hash : Str := []
  username : Str := []
  password : Str := []

/-- The platform's readers: a text that is no URL is read as none. -/
structure Platform where
  url : Str → Option Url
  number : Str → Number
  string : Value → Str
  numeral : ℚ → List Json.NumeralChar

/-- `CEDAR_ENDPOINT_ENV`. -/
def cedarEndpointEnv : Str := js "CEDAR_ENDPOINT"

/-- `CEDAR_AUTHENTICATION_ENV`. -/
def cedarAuthenticationEnv : Str := js "CEDAR_AUTHENTICATION"

/-- The server package's rule, and the bare form of the IPv6 loopback. -/
def isLoopbackHost (hostname : Str) : Bool := Server.isLoopbackHost hostname || hostname == js "::1"

/-! ## The agent -/

/-- The port a URL names, or its protocol's own. -/
def Url.effectivePort (url : Url) : Str :=
  if url.port ≠ [] then url.port else if url.protocol = js "https:" then js "443" else js "80"

/-- The host a URL names, with every loopback spelling as one. -/
def Url.agentHost (url : Url) : Str := if isLoopbackHost url.hostname then js "loopback" else url.hostname

/-- `pathname.replace(/\/+$/, "")`. -/
def stripSlashes (pathname : Str) : Str := pathname.rdropWhile fun c => c = 0x2F

/-- The endpoint a URL is: its origin and its path, to which the agent's own paths are appended. -/
def Url.endpoint (url : Url) : Str := url.origin ++ stripSlashes url.pathname

section Settings

variable (platform : Platform)

/-- `agentKey`: what identifies an agent for one collector per agent. -/
def agentKey (endpoint : Str) : Except Thrown Str :=
  match platform.url endpoint with
  | none => .error (.typeError (js "Invalid URL"))
  | some url => .ok (url.protocol ++ js "//" ++ url.agentHost ++ js ":" ++ url.effectivePort ++ url.pathname)

/-- A configured value as a refusal quotes it. -/
def shown : Value → Str
  | .num n => numberText n
  | .other .bigint ref => platform.string (.other .bigint ref) ++ js "n"
  | v => (Json.stringify platform.numeral v).getD (platform.string v)

/-- What a URL is refused for, named by where it came from. -/
def checkEndpoint (origin raw : Str) : Except Thrown Str :=
  match platform.url raw with
  | none => cedarEngineError (origin ++ js " is not a URL: " ++ Json.quote raw)
  | some url =>
    if url.protocol ≠ js "http:" ∧ url.protocol ≠ js "https:" then
      cedarEngineError (origin ++ js " must be an http(s) URL, got " ++ Json.quote raw)
    else if url.protocol = js "http:" ∧ isLoopbackHost url.hostname = false then
      cedarEngineError (origin ++ js " is plain http to a routable host (" ++ url.hostname ++
        js "); the request carries the subject's attributes and the answer is an authorization — use https, or a loopback address")
    else if url.search ≠ [] ∨ url.hash ≠ [] then
      cedarEngineError (origin ++ js " must be a base URL without query or fragment, got " ++ Json.quote raw)
    else if url.username ≠ [] ∨ url.password ≠ [] then
      cedarEngineError (origin ++ js " must not carry credentials in the URL — set authentication (or " ++
        cedarAuthenticationEnv ++ js ") instead")
    else .ok url.endpoint

/-- `resolveEndpoint`. -/
def resolveEndpoint (configured : Value) (fromEnv : Option Str) : Except Thrown Str :=
  match configured with
  | .undefined =>
    match fromEnv with
    | some raw => if raw = [] then missing else checkEndpoint platform cedarEndpointEnv raw
    | none => missing
  | .str raw =>
    if raw = [] then refused configured else checkEndpoint platform (js "config endpoint") raw
  | _ => refused configured
where
  /-- With neither, boot fails naming both ways out. -/
  missing : Except Thrown Str :=
    cedarEngineError (js "no cedar engine endpoint is configured — set endpoint (or " ++ cedarEndpointEnv ++
      js ") to run against a cedar-agent, or import \"@o3co/auth.policy-verifier.cedar-wasm\" to evaluate in-process")
  refused (configured : Value) : Except Thrown Str :=
    cedarEngineError (js "endpoint must be a non-empty URL string, got " ++ shown platform configured)

/-! ## The token -/

/-- The headers of every call. -/
structure AgentHeaders where
  contentType : Str := js "application/json"
  authorization : Option Str := none

/-- A tab, a space or a line break: what `fetch` trims off a header value. -/
def isHeaderBlank (c : UInt16) : Bool := c == 0x09 || c == 0x0A || c == 0x0D || c == 0x20

/-- Whether `fetch` can send the value. No character above U+00FF is a single code unit below it. -/
def isSendableHeaderValue (value : Str) : Bool :=
  ((value.dropWhile isHeaderBlank).rdropWhile isHeaderBlank).all fun c =>
    c == 0x09 || (0x20 ≤ c && c ≤ 0x7E) || (0x80 ≤ c && c ≤ 0xFF)

/-- The headers with a token, when it can be sent. -/
def headersWith (source token : Str) : Except Thrown AgentHeaders :=
  if isSendableHeaderValue token then .ok { authorization := some token }
  else
    cedarEngineError (source ++ js " is not a valid HTTP header value — it holds an ASCII control character other than a tab, or a character above U+00FF; set it to the token the agent was started with")

def requestHeaders (configured : Value) (fromEnv : Option Str) : Except Thrown AgentHeaders :=
  match configured with
  | .undefined =>
    match fromEnv with
    | some token => if token = [] then .ok {} else headersWith cedarAuthenticationEnv token
    | none => .ok {}
  | .str token => if token = [] then refused configured else headersWith (js "authentication") token
  | _ => refused configured
where
  refused (configured : Value) : Except Thrown AgentHeaders :=
    cedarEngineError (js "authentication must be a non-empty string, got " ++ shown platform configured)

/-! ## The bounds -/

/-- A configured whole number in a range, or what stands for it when it is absent. -/
def resolveWhole (fallback minimum maximum : Nat) (message : Str) (configured : Value) : Except Thrown Nat :=
  if configured = .undefined then .ok fallback
  else
    match (writtenNumber platform.number configured).toInt? with
    | some n =>
      if (minimum : Int) ≤ n ∧ n ≤ maximum then .ok n.toNat
      else cedarEngineError (message ++ js ", got " ++ shown platform configured)
    | none => cedarEngineError (message ++ js ", got " ++ shown platform configured)

def resolveMaxAnswerBytes : Value → Except Thrown Nat :=
  resolveWhole platform (1024 * 1024) 1024 (256 * 1024 * 1024)
    (js "maxAnswerBytes must be a whole number of bytes from 1 KiB to 256 MiB")

def resolveReadBackIntervalMs : Value → Except Thrown Nat :=
  resolveWhole platform 30000 1000 (60 * 60 * 1000)
    (js "readBackIntervalMs must be a whole number of milliseconds from 1000 to 3600000")

end Settings

end PolicyVerifier.Cedar
