import PolicyVerifier.Cedar.DescribeFailure
import PolicyVerifier.Cedar.Endpoint
import PolicyVerifier.Js.Operators
import PolicyVerifier.Js.TextDecoder

/-!
# Reading the set an agent holds

The read behind the read-back, within the load's deadline. What `fetch` does is given: each of the two
requests is rejected or answered, and an answer's body comes in chunks until it ends or breaks off. A request
or a body that stalls is rejected or broken off when the deadline aborts its signal.
-/

namespace PolicyVerifier.Cedar

open Js PolicyVerifier.Core

variable {F : Type}

/-! ## What `fetch` does -/

/-- A failure, as the code that catches it finds it: what was thrown, and whether the deadline had passed
(`signal.aborted`). -/
structure CaughtFailure (F : Type) where
  cause : Option F
  aborted : Bool

/-- A body: its chunks, and the failure it broke off with, where it did not end. -/
structure AnswerBody (F : Type) where
  chunks : List (List UInt8)
  broken : Option (CaughtFailure F) := none

/-- A response. -/
structure AgentResponse (F : Type) where
  status : Nat
  statusText : Str := []
  contentLength : Option Str := none
  body : Option (AnswerBody F)

/-- `response.ok`. -/
def AgentResponse.ok (response : AgentResponse F) : Bool := 200 ≤ response.status && response.status ≤ 299

/-- What one request comes to. -/
inductive Fetched (F : Type) where
  | rejected (failure : CaughtFailure F)
  | answered (response : AgentResponse F)

/-- The request for the set: a redirect is not followed, and no copy a hop kept is taken. -/
structure SetRequest where
  url : Str
  headers : AgentHeaders
  method : Str := js "GET"
  redirect : Str := js "manual"
  cache : Str := js "no-store"

/-- Which request of a read it is. -/
inductive GetAttempt where
  | first
  | again
deriving DecidableEq

/-- What the read rests on: `Number` and `JSON.parse` of a text, the latter none where it throws, and what
reading a failure comes to. -/
structure ReadPlatform (F : Type) where
  number : Str → Number
  json : Str → Option Value
  failures : FailureReads F

/-! ## The bounded body -/

/-- `CEDAR_ANSWER_MAX_BYTES`. -/
def cedarAnswerMaxBytes : Nat := 1024 * 1024

/-- The loop over a body's chunks; none is a body past the bound. -/
def readChunks (maxBytes : Nat) (broken : Option (CaughtFailure F)) (received : Nat) (decoder : TextDecoder)
    (text : Str) : List (List UInt8) → Except (CaughtFailure F) (Option Str)
  | [] =>
    match broken with
    | some failure => .error failure
    | none => .ok (some (text ++ decoder.flush))
  | value :: chunks =>
    if maxBytes < received + value.length then .ok none
    else
      let decoded := decoder.decode value
      readChunks maxBytes broken (received + value.length) decoded.1 (text ++ decoded.2) chunks

section Read

variable [DecidableEq F] (platform : ReadPlatform F)

/-- `Number(response.headers.get("content-length"))`. -/
def declaredLength (response : AgentResponse F) : Number :=
  match response.contentLength with
  | some header => platform.number header
  | none => .rat 0

/-- `boundedText`: a body read whole and decoded, or none where it is past the bound, declared or read. -/
def boundedText (response : AgentResponse F) (maxBytes : Nat) : Except (CaughtFailure F) (Option Str) :=
  if Number.less (.rat maxBytes) (declaredLength platform response) then .ok none
  else
    match response.body with
    | none => .ok (some [])
    | some body => readChunks maxBytes body.broken 0 {} [] body.chunks

/-- `parseJson`. -/
def parseJson (text : Str) : Value := (platform.json text).getD .undefined

/-- `errorDescription`: what the body says of the status, or the status text; a body the deadline cut off
is the deadline's to report. -/
def errorDescription (response : AgentResponse F) (maxAnswerBytes : Nat) : Except (CaughtFailure F) Str :=
  match boundedText platform response (min maxAnswerBytes cedarAnswerMaxBytes) with
  | .error failure => if failure.aborted then .error failure else .ok fallback
  | .ok none => .ok fallback
  | .ok (some text) =>
    match ((parseJson platform text).field (js "description")).str? with
    | some description => .ok (if 0 < description.length then description else fallback)
    | none => .ok fallback
where
  fallback : Str := if response.statusText = [] then js "no description" else response.statusText

/-! ## The set -/

/-- Adds one item of a list to the set; none where it is no policy, or one whose id is there. -/
def addPolicy (set : AgentPolicySet) (item : Value) : Option AgentPolicySet :=
  match (item.field (js "id")).str?, (item.field (js "content")).str? with
  | some id, some content => if set.has id then none else some (set.set id content)
  | _, _ => none

/-- `agentPolicySetOf`. -/
def agentPolicySetOf (body : Value) : Option AgentPolicySet :=
  match body.items? with
  | some items => items.foldlM addPolicy ∅
  | none => none

/-- A byte count, as an operator would write it. -/
def byteSize (bytes : Nat) : Str :=
  if bytes % (1024 * 1024) = 0 then decimal (bytes / (1024 * 1024)) ++ js " MiB"
  else if bytes % 1024 = 0 then decimal (bytes / 1024) ++ js " KiB"
  else decimal bytes ++ js " bytes"

/-! ## The read -/

/-- What a response comes to: the set it is, or why it cannot be compared. -/
def readResponse (response : AgentResponse F) (maxAnswerBytes timeoutMs : Nat) : AgentSetRead :=
  if !response.ok then
    let description := match errorDescription platform response maxAnswerBytes with
      | .ok description => description
      | .error _ => js "its description not whole in time"
    .unverifiable (js "answered " ++ decimal response.status ++ js ": " ++ description)
  else
    match boundedText platform response maxAnswerBytes with
    | .error failure =>
      .unverifiable
        (if failure.aborted then js "no whole answer within " ++ decimal timeoutMs ++ js " ms"
        else js "an answer broken off: " ++ describeFailure platform.failures failure.cause)
    | .ok none => .unverifiable (js "a policy set of more than " ++ byteSize maxAnswerBytes)
    | .ok (some text) =>
      match agentPolicySetOf (parseJson platform text) with
      | some held => .held held
      | none => .unverifiable (js "something that is not a policy set")

/-- `readAgentSet`. A request that is rejected before the deadline is made once more. -/
def readAgentSet (doFetch : SetRequest → GetAttempt → Fetched F) (endpoint : Str) (headers : AgentHeaders)
    (maxAnswerBytes timeoutMs : Nat) : Except Thrown AgentSetRead :=
  let get := doFetch { url := endpoint ++ js "/v1/policies", headers }
  let late := AgentSetRead.unverifiable (js "no answer within " ++ decimal timeoutMs ++ js " ms")
  match get .first with
  | .answered response => .ok (readResponse platform response maxAnswerBytes timeoutMs)
  | .rejected failure =>
    if failure.aborted then .ok late
    else
      match get .again with
      | .answered response => .ok (readResponse platform response maxAnswerBytes timeoutMs)
      | .rejected failure =>
        if failure.aborted then .ok late
        else cedarEngineError (js "cedar engine at " ++ endpoint ++ js " is unreachable: " ++
          describeFailure platform.failures failure.cause)

end Read

end PolicyVerifier.Cedar
