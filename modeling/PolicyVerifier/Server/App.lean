import PolicyVerifier.Server.Http.CallerAuth
import PolicyVerifier.Server.Routes.Verify

/-!
# One request through the app

What `createApp` mounts in front of the decision endpoints, as one machine with them: the caller-auth gate,
the request id, the body parser and the handler that answers its failures. The parser is Express's own:
what comes of it is an event.
-/

namespace PolicyVerifier.Server

open Js PolicyVerifier.Core

/-! ## The request id -/

/-- `REQUEST_ID_HEADER`. -/
def requestIdHeader : Str := js "x-request-id"

/-- `MAX_REQUEST_ID_LENGTH`. -/
def maxRequestIdLength : Nat := 128

/-- A character of `REQUEST_ID_CHARACTERS`. -/
def isRequestIdCharacter (c : UInt16) : Bool :=
  (0x30 ≤ c && c ≤ 0x39) || (0x41 ≤ c && c ≤ 0x5A) || (0x61 ≤ c && c ≤ 0x7A) || (js "-_.:+/=#").contains c

/-- `acceptRequestId`: refused means absent. -/
def acceptRequestId : Option Str → Option Str
  | none => none
  | some raw =>
    if raw = [] ∨ maxRequestIdLength < raw.length then none
    else if raw.all isRequestIdCharacter then some raw
    else none

/-! ## Requests and replies -/

/-- The decision endpoints. -/
inductive DecisionEndpoint where
  | verify
  | verifyBatch
deriving DecidableEq

/-- A request's endpoint and headers, as `req.get` reads them. -/
structure IncomingRequest where
  endpoint : DecisionEndpoint
  get : Str → Option Str

/-- `requestIdOf`. -/
def IncomingRequest.requestId (request : IncomingRequest) : Option Str := acceptRequestId (request.get requestIdHeader)

/-- The JSON that is sent. -/
inductive ReplyBody where
  | error (code message : Str)
  | decision (response : DecisionResponse)
  | decisions (slots : List (Option DecisionResponse))

/-- A response: its status, its body and the request id it carries. -/
structure Reply where
  status : Nat
  body : ReplyBody
  requestId : Option Str

/-- The decisions a reply gives. -/
def Reply.decisions (reply : Reply) : List DecisionResponse :=
  match reply.body with
  | .error _ _ => []
  | .decision response => [response]
  | .decisions slots => slots.reduceOption

/-- The reply an answer is sent as. -/
def Answer.reply (answer : Answer) (requestId : Option Str) : Reply :=
  { status := answer.status
    body :=
      match answer.body with
      | .error code message => .error code message
      | .decisions slots => .decisions slots
    requestId }

/-- The same, of `/verify`. -/
def VerifyAnswer.reply (answer : VerifyAnswer) (requestId : Option Str) : Reply :=
  match answer with
  | envelope answer => answer.reply requestId
  | decision response => { status := (decision response).status, body := .decision response, requestId }

/-- The answer of the gate. -/
def Answer.callerUnauthenticated : Answer :=
  { status := 401, body := .error (js "caller_unauthenticated") (js "Caller authentication failed") }

/-! ## The body parser's failures -/

/-- `err.type`. -/
def errorType : Thrown → Value
  | .other err => err.field (js "type")
  | _ => .undefined

/-- `bodyParserFailure`. -/
def bodyParserFailure (err : Thrown) : Option Answer :=
  match errorType err with
  | .str type =>
    if type = js "entity.too.large" then
      some { status := 413, body := .error (js "payload_too_large") (js "Request body exceeds the configured limit") }
    else if type = js "entity.parse.failed" then
      some { status := 400, body := .error (js "invalid_request") (js "Request body is not valid JSON") }
    else if type = js "encoding.unsupported" ∨ type = js "charset.unsupported" then
      some
        { status := 415
          body := .error (js "unsupported_media_type") (js "Request body must be application/json encoded as UTF-8") }
    else if type = js "request.aborted" then
      some { status := 400, body := .error (js "invalid_request") (js "Request body was not fully received") }
    else none
  | _ => none

/-- `isBodyParserFailure`. -/
def isBodyParserFailure (err : Thrown) : Bool := (errorType err).str?.isSome

/-- What the terminal handler takes a failure for that the envelope does not map. -/
def bodyFailure (err : Thrown) : ClassifiedFailure := if isBodyParserFailure err then .bodyRejected else .internal

/-! ## The machine -/

/-- What the app is built with. -/
structure AppConfig where
  callerAuth : Option CallerGate
  router : RouterConfig

/-- One request: turned away at the gate, which warns of the header's name and never of its value, its body
still being read or refused, or with its handler. -/
inductive Exchange where
  | turnedAway (header : Str)
  | receiving
  | bodyRefused (answer : Answer) (lines : List RouteLine) (observations : List Observation)
  | verifying (body : Value) (s : Verify)
  | batching (body : Value) (s : BatchDecisions)

/-- What can happen next. -/
inductive ExchangeEvent where
  | received (o : Except Thrown Value)
  | verify (e : VerifyEvent)
  | batch (e : BatchDecisionsEvent)

namespace Exchange

section

variable {Digest : Type} [DecidableEq Digest] (sha256 : List UInt8 → Digest) (app : AppConfig) (request : IncomingRequest)

/-- Whether the gate lets a request through, where there is one. -/
def admitted : Bool := app.callerAuth.all fun gate => gate.admits sha256 request.get

/-- A request at the gate, ahead of the body parser. -/
def start : Exchange :=
  match app.callerAuth with
  | some gate => if gate.admits sha256 request.get then .receiving else .turnedAway gate.header
  | none => .receiving

/-- `denyOnBodyFailure`: nothing has been sent yet. -/
def denyOnBodyFailure (err : Thrown) : Exchange :=
  match bodyParserFailure err with
  | some refusal => .bodyRefused refusal [] []
  | none =>
    let failure := bodyFailure err
    .bodyRefused .internalError [.internalError (loggableError err failure) failure]
      (countCollectorFailure app.router.metrics failure)

/-- One event. -/
def step (x : Exchange) : ExchangeEvent → Option Exchange
  | .received o =>
    match x, o with
    | .receiving, .error err => some (denyOnBodyFailure app err)
    | .receiving, .ok body =>
      match request.endpoint with
      | .verify => some (.verifying body (Verify.start app.router body))
      | .verifyBatch => some (.batching body (BatchDecisions.start app.router request.requestId body))
    | _, _ => none
  | .verify e =>
    match x with
    | .verifying body s => (s.step app.router request.requestId e).map (Exchange.verifying body)
    | _ => none
  | .batch e =>
    match x with
    | .batching body s => (s.step app.router request.requestId e).map (Exchange.batching body)
    | _ => none

/-- What was sent back. Ahead of the router nothing carries a request id. -/
def replies (x : Exchange) : List Reply :=
  match x with
  | .turnedAway _ => [Answer.callerUnauthenticated.reply none]
  | .receiving => []
  | .bodyRefused answer _ _ => [answer.reply request.requestId]
  | .verifying _ s => s.answers.map fun answer => answer.reply request.requestId
  | .batching _ s => s.batch.answers.map fun answer => answer.reply request.requestId

end

/-- The subjects that were looked for. -/
def authentications : Exchange → Nat
  | verifying _ s => s.authentications
  | batching _ s => s.batch.authentications
  | _ => 0

/-- The `decide` calls that were made, each with its machine. -/
def calls : Exchange → List DecisionCall
  | verifying _ s => s.call.toList
  | batching _ s =>
    List.zipWith (fun call deciding => { entry := call.entry, input := call.input, deciding }) s.batch.calls s.deciding
  | _ => []

/-- The lines the decisions wrote. -/
def logs (x : Exchange) : List LogLine := x.calls.flatMap fun call => call.deciding.logs

/-- The lines the router wrote. -/
def lines : Exchange → List RouteLine
  | bodyRefused _ lines _ => lines
  | verifying _ s => s.lines
  | batching _ s => s.batch.lines
  | _ => []

end Exchange

end PolicyVerifier.Server
