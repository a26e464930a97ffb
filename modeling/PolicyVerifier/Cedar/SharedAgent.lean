import PolicyVerifier.Cedar.EntityLiteral
import PolicyVerifier.Cedar.WasmLoad

/-!
# One agent and the verifiers that ask it

An agent holds one policy set, and `PUT /v1/policies` replaces all of it. Verifiers push to it and ask it while
others do; it evaluates an authorization call over the set it holds when it comes to the call, and what it answers
is read later still.
-/

namespace PolicyVerifier.Cedar

open Js PolicyVerifier.Core

/-- A verifier over the http engine: what its collector was created from, and what it is bound to. -/
structure Verifier (sha256 : Str → Digest) where
  endpoint : Str
  push : List (Str × Str) → Except Str Unit
  settings : CollectorSettings
  source : PolicySource sha256
  rule : BoundRule
  set : HttpPolicySet
  created : create (cedarHttpEngine endpoint push) settings source = .ok (rule, set)

/-- The body of a push: the text of every file that is not blank, under its agent id. -/
def pushedTexts {sha256 : Str → Digest} (source : PolicySource sha256) : Except Str (List (Str × Str)) :=
  (httpPolicies source.files).map fun named =>
    named.map fun policy => (agentPolicyId policy.id source.revision, policy.text)

/-- An authorization call, as the agent reads it. -/
def AgentAuthorizationCall.request (call : AgentAuthorizationCall) : Option CedarRequest := do
  let principal ← readWhole call.principal
  let action ← readWhole call.action
  let resource ← readWhole call.resource
  pure { principal, action, resource, context := call.context, entities := call.entities }
where
  /-- A reference that is a whole text. -/
  readWhole (text : Str) : Option CedarEntityUid := do
    let (uid, rest) ← readEntityUid text
    if rest = [] then pure uid else none

/-- One authorization call: who asked, and what it was asked for. `evaluated` is what the agent made of it, with
the set it held then; `outcome` is what the exchange came to for the verifier. -/
structure AgentExchange (ι Policy : Type) where
  verifier : ι
  request : CedarRequest
  call : AgentAuthorizationCall
  evaluated : Option (Policies Policy × Except Thrown Value) := none
  outcome : Option (Except Thrown Value) := none

/-- The agent, with every call it was ever sent. -/
structure SharedAgent (ι Policy : Type) where
  held : Policies Policy := []
  exchanges : List (AgentExchange ι Policy) := []

/-- What can happen: a verifier's push reaches the agent, at boot or when its read-back restores the set; a push
of anyone else does; the agent starts again, empty; a verifier sends a call; the agent comes to a call; what it
answered is read; or the exchange ends without an answer. -/
inductive AgentEvent (ι : Type) where
  | push (verifier : ι)
  | put (policies : List (Str × Str))
  | restart
  | call (verifier : ι) (request : CedarRequest)
  | evaluate (exchange : Nat)
  | deliver (exchange : Nat)
  | lose (exchange : Nat) (cause : Thrown)

section

variable {ι Policy : Type} (cedar : CedarEvaluator Policy)
  -- how the agent words an error of a policy, and what a call it does not answer comes to for the engine
  (wording : Str × Str → Str) (unanswered : List Str → Thrown)

/-- What an agent answers an evaluation with. -/
def agentBody (response : CedarResponse) : Value :=
  .obj 0
    [(js "decision", .str (if response.allow then js "Allow" else js "Deny")),
      (js "diagnostics", .obj 0
        [(js "reason", .strings response.reason), (js "errors", .strings (response.errors.map wording))])]

/-- What an agent makes of a call over the set it holds. -/
def agentAnswer (held : Policies Policy) (call : AgentAuthorizationCall) : Except Thrown Value :=
  match call.request with
  | none => .error (unanswered [])
  | some request =>
    match cedar.authorize held request with
    | .ok response => .ok (agentBody wording response)
    | .error errors => .error (unanswered errors)

namespace SharedAgent

/-- `PUT /v1/policies`: the whole set is replaced, where every policy of the body is read. -/
def put (s : SharedAgent ι Policy) (policies : List (Str × Str)) : SharedAgent ι Policy :=
  match cedar.compile policies with
  | .ok held => { s with held }
  | .error _ => s

/-- An exchange goes on. -/
def update (s : SharedAgent ι Policy) (n : Nat) (exchange : AgentExchange ι Policy) : SharedAgent ι Policy :=
  { s with exchanges := s.exchanges.set n exchange }

/-- One event. An exchange is evaluated once at most, and ends once. -/
def step {sha256 : Str → Digest} (verifiers : ι → Verifier sha256) (s : SharedAgent ι Policy) :
    AgentEvent ι → Option (SharedAgent ι Policy)
  | .push verifier =>
    match pushedTexts (verifiers verifier).source with
    | .ok policies => some (s.put cedar policies)
    | .error _ => none
  | .put policies => some (s.put cedar policies)
  | .restart => some { s with held := [] }
  | .call verifier request =>
    match authorizationCall request with
    | .ok call => some { s with exchanges := s.exchanges ++ [{ verifier, request, call }] }
    | .error _ => none
  | .evaluate n =>
    match s.exchanges[n]? with
    | some exchange =>
      if exchange.evaluated.isNone then
        some (s.update n
          { exchange with evaluated := some (s.held, agentAnswer cedar wording unanswered s.held exchange.call) })
      else none
    | none => none
  | .deliver n =>
    match s.exchanges[n]? with
    | some exchange =>
      match exchange.evaluated, exchange.outcome with
      | some (_, answer), none => some (s.update n { exchange with outcome := some answer })
      | _, _ => none
    | none => none
  | .lose n cause =>
    match s.exchanges[n]? with
    | some exchange =>
      if exchange.outcome.isNone then some (s.update n { exchange with outcome := some (.error cause) }) else none
    | none => none

end SharedAgent

end

end PolicyVerifier.Cedar
