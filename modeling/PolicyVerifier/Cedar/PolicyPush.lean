import PolicyVerifier.Cedar.AgentSetRead
import PolicyVerifier.Cedar.HttpLoad

/-!
# Pushing the set to an agent

`pushPolicies`, one turn at a time: a `PUT` that is rejected before the deadline is sent again once the retry's timer
fires, for as long as the deadline leaves time for it; whatever the agent answers ends the push. What `fetch`, the
clock and the logger do is each turn's own.
-/

namespace PolicyVerifier.Cedar

open Js PolicyVerifier.Core

variable {F : Type}

/-- What a push is called with. -/
structure PushCall where
  endpoint : Str
  headers : AgentHeaders
  policies : List (Str × Str)
  description : Str
  loadTimeoutMs : Nat := 10000
  retryMs : Nat := 500
  tokenSource : Option Str := none
  maxAnswerBytes : Nat := cedarAnswerMaxBytes

/-- `tokenSourceOf`: where the token was read. -/
def tokenSourceOf (configured : Value) (fromEnv : Option Str) : Option Str :=
  if configured ≠ .undefined then some (js "authentication")
  else if fromEnv.any fun token => 0 < token.length then some cedarAuthenticationEnv
  else none

/-- The push of a load. -/
def LoadCall.push {sha256 : Str → Digest} (call : LoadCall sha256) (job : LoadJob) : PushCall :=
  { endpoint := job.set.endpoint, headers := job.headers, policies := job.policies, description := job.description
    tokenSource := tokenSourceOf call.config.authentication call.authenticationEnv
    maxAnswerBytes := job.maxAnswerBytes }

/-- One request of a push: each policy as its id and its content, under a signal of so many milliseconds from when
the clock was read for it. -/
structure PolicyPut where
  url : Str
  headers : AgentHeaders
  body : List (Str × Str)
  sentAt : ℚ
  timeoutMs : ℚ
  method : Str := js "PUT"
  redirect : Str := js "manual"

/-- Where a push is: its request is out, the retry's timer runs, or it has come to its end. -/
inductive PushPhase where
  | sending
  | waiting
  | settled (outcome : Except Thrown AgentPolicySet)

/-- A push: its own variables, and for the record the requests it sent and the clock as it was last read. -/
structure PolicyPush where
  deadline : ℚ
  attempt : Nat
  previousFailure : Option Str
  phase : PushPhase
  requests : List PolicyPut
  clock : ℚ

/-- One turn: the request that is out settles, with the clock as it is read then, and what the logger's `warn`
does; or the retry's timer fires, with the clock as the next request reads it. -/
inductive PushEvent (F : Type) where
  | settled (fetched : Fetched F) (clock : ℚ) (warn : Except Thrown Unit)
  | fired (clock : ℚ)

section

variable [DecidableEq F] (platform : ReadPlatform F) (call : PushCall)

/-- `pushedCopy`: the agent's own copy of the set, which has the ids that were sent and no other. -/
def pushedCopy (response : AgentResponse F) : Except Thrown AgentPolicySet :=
  let at_ := js "cedar engine at " ++ call.endpoint
  match boundedText platform response call.maxAnswerBytes with
  | .error failure =>
    cedarEngineError (at_ ++
      (if failure.aborted then
        js " did not finish answering the policy load from " ++ call.description ++ js " within " ++
          decimal call.loadTimeoutMs ++ js " ms"
      else
        js " broke off its answer to the policy load: " ++ describeFailure platform.failures failure.cause))
  | .ok none =>
    cedarEngineError (at_ ++ js " answered the policy load with more than " ++ byteSize call.maxAnswerBytes ++
      js " — refused; set maxAnswerBytes higher if its copy of the set is this large")
  | .ok (some text) =>
    match agentPolicySetOf (parseJson platform text) with
    | some copy =>
      if copy.entries.length ≠ call.policies.length ∨ call.policies.any (fun policy => !copy.has policy.1) then
        notTheSet at_
      else .ok copy
    | none => notTheSet at_
where
  notTheSet (at_ : Str) : Except Thrown AgentPolicySet :=
    cedarEngineError (at_ ++ js " answered the policy load from " ++ call.description ++
      js " with something other than the set it was sent — there is nothing to read its set back against")

/-- What an error's body says of it; no signal is handed to this read. -/
def refusalDescription (response : AgentResponse F) : Str :=
  match errorDescription platform response call.maxAnswerBytes with
  | .ok description => description
  | .error _ => errorDescription.fallback response

/-- What a response ends a push with. -/
def pushAnswered (response : AgentResponse F) : Except Thrown AgentPolicySet :=
  let at_ := js "cedar engine at " ++ call.endpoint
  let status := decimal response.status
  if response.ok then pushedCopy platform call response
  else if 300 ≤ response.status ∧ response.status < 400 then
    cedarEngineError (at_ ++ js " answered " ++ status ++
      js " to the policy load instead of accepting it — redirects are not followed; set endpoint to the URL that answers it itself")
  else if response.status = 401 ∨ response.status = 403 then
    cedarEngineError
      (match call.headers.authorization with
        | none =>
          at_ ++ js " requires a token and none was sent — set authentication (or " ++ cedarAuthenticationEnv ++
            js ") to the token the agent was started with (" ++ status ++ js ")"
        | some _ =>
          at_ ++ js " did not accept the token from " ++ call.tokenSource.getD (js "authentication") ++ js " (" ++
            status ++ js ") — it must equal the agent's --authentication / CEDAR_AGENT_AUTHENTICATION")
  else
    let ids := join (js ", ") (call.policies.map Prod.fst)
    cedarEngineError (at_ ++ js " refused the policy set from " ++ call.description ++ js " (" ++ status ++
      js "; policies: " ++ (if ids = [] then js "none" else ids) ++ js "): " ++
      refusalDescription platform call response)

/-- What a push that the deadline cut off is refused with. -/
def pushLate (attempt : Nat) (previousFailure : Option Str) : Except Thrown AgentPolicySet :=
  cedarEngineError (js "cedar engine at " ++ call.endpoint ++ js " did not accept the policy set from " ++
    call.description ++ js " within " ++ decimal call.loadTimeoutMs ++ js " ms (" ++ decimal attempt ++
    js " attempts) — " ++
    (match previousFailure with
      | none =>
        js "the request got no response before the deadline: the agent took it and did not answer, or the connection never completed"
      | some failure =>
        js "the last got no response before the deadline, and the one before it failed: " ++ failure))

/-- What a push is refused with that the deadline leaves no time to send again. -/
def pushUnreachable (attempt : Nat) (failure : Str) : Except Thrown AgentPolicySet :=
  cedarEngineError (js "cedar engine at " ++ call.endpoint ++
    js " is unreachable — could not load the policy set from " ++ call.description ++ js " within " ++
    decimal call.loadTimeoutMs ++ js " ms (" ++ decimal attempt ++ js " attempts): " ++ failure)

namespace PolicyPush

/-- Sends the request once more, under a signal of the time that is left. -/
def send (s : PolicyPush) (clock : ℚ) : PolicyPush :=
  { s with
    attempt := s.attempt + 1
    phase := .sending
    clock
    requests := s.requests ++
      [{ url := call.endpoint ++ js "/v1/policies", headers := call.headers, body := call.policies
         sentAt := clock, timeoutMs := max 1 (s.deadline - clock) }] }

/-- The push is over. -/
def settle (s : PolicyPush) (outcome : Except Thrown AgentPolicySet) : PolicyPush :=
  { s with phase := .settled outcome }

/-- `pushPolicies`, up to its first await. -/
def start (now clock : ℚ) : PolicyPush :=
  send call
    { deadline := now + call.loadTimeoutMs, attempt := 0, previousFailure := none, phase := .waiting
      requests := [], clock := now } clock

/-- The request that is out was rejected. -/
def rejected (s : PolicyPush) (failure : CaughtFailure F) (clock : ℚ) (warn : Except Thrown Unit) : PolicyPush :=
  if failure.aborted then s.settle (pushLate call s.attempt s.previousFailure)
  else
    let described := describeFailure platform.failures failure.cause
    let s := { s with previousFailure := some described, clock }
    if s.deadline ≤ clock + call.retryMs then s.settle (pushUnreachable call s.attempt described)
    else
      match warn with
      | .error cause => s.settle (.error cause)
      | .ok _ => { s with phase := .waiting }

/-- One turn of a push. -/
def step (s : PolicyPush) : PushEvent F → Option PolicyPush
  | .settled fetched clock warn =>
    match s.phase with
    | .sending =>
      match fetched with
      | .rejected failure => some (s.rejected platform call failure clock warn)
      | .answered response => some (s.settle (pushAnswered platform call response))
    | _ => none
  | .fired clock =>
    match s.phase with
    | .waiting => some (s.send call clock)
    | _ => none

end PolicyPush

end

end PolicyVerifier.Cedar
