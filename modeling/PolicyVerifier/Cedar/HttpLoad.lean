import PolicyVerifier.Cedar.Endpoint

/-!
# Loading a policy set into an agent

The http engine's `load`, one turn at a time: all of it up to the push, what the settled push is followed by,
and what the first read is. Loads of one engine run side by side and share the table of the agents that are
taken. What the agent, the clock, the random source and the logger do is each turn's own.
-/

namespace PolicyVerifier.Cedar

open Js PolicyVerifier.Core

variable {sha256 : Str → Digest}

/-- A collector's configuration entry, as far as the engine reads it. -/
structure EngineConfig where
  endpoint : Value := .undefined
  authentication : Value := .undefined
  maxAnswerBytes : Value := .undefined
  readBackIntervalMs : Value := .undefined

/-- One call of `load`, with the environment it is made in; `warn` is what the logger's `warn` does to it. -/
structure LoadCall (sha256 : Str → Digest) where
  source : PolicySource sha256
  config : EngineConfig
  endpointEnv : Option Str := none
  authenticationEnv : Option Str := none
  warn : Except Thrown Unit := .ok ()

/-- What a load goes by once everything it was called with is read. -/
structure LoadJob where
  agent : Str
  description : Str
  headers : AgentHeaders
  maxAnswerBytes : Nat
  readBackIntervalMs : Nat
  policies : List (Str × Str)
  set : HttpPolicySet

/-- Where a load is: awaiting its push, awaiting its first read, or settled. -/
inductive LoadPhase where
  | pushing
  | reading (pushed : AgentPolicySet)
  | resolved (readBack : ReadBackSystem)
  | rejected (cause : Thrown)

/-- A load: none of it was read where it was rejected before. -/
structure Load where
  job : Option LoadJob
  phase : LoadPhase

/-- The engine: the agents that are taken, each with the set's description, and the loads in the order of
their calls. -/
structure HttpEngine where
  loaded : OrderedMap Str Str := ∅
  loads : List Load := []

/-- One turn: a call of `load`; a push or a first read that settles, the read with what the clock, the random
source and the logger's `info` then do. -/
inductive LoadEvent (sha256 : Str → Digest) where
  | load (call : LoadCall sha256)
  | pushSettled (load : Nat) (outcome : Except Thrown AgentPolicySet)
  | readSettled (load : Nat) (outcome : Except Thrown AgentSetRead) (clock : Except Thrown ℚ) (draw : Option ℚ)
      (info : Except Thrown Unit)

section Prepare

variable (platform : Platform)

/-- A refusal of the policy layout, as it is thrown. -/
def layoutError {α : Type} : Except Str α → Except Thrown α
  | .ok a => .ok a
  | .error message => cedarEngineError message

/-- `load`, up to where it asks for the agent. -/
def prepare (call : LoadCall sha256) : Except Thrown LoadJob := do
  let endpoint ← resolveEndpoint platform call.config.endpoint call.endpointEnv
  let headers ← requestHeaders platform call.config.authentication call.authenticationEnv
  let maxAnswerBytes ← resolveMaxAnswerBytes platform call.config.maxAnswerBytes
  let readBackIntervalMs ← resolveReadBackIntervalMs platform call.config.readBackIntervalMs
  let named ← layoutError (httpPolicies call.source.files)
  let agent ← agentKey platform endpoint
  .ok
    { agent, headers, maxAnswerBytes, readBackIntervalMs
      description := call.source.description
      policies := named.map fun policy => (agentPolicyId policy.id call.source.revision, policy.text)
      set :=
        { endpoint
          ownIds := .ofList (named.map fun policy => (agentPolicyId policy.id call.source.revision, policy.id))
          ownMark := loadMark call.source.revision } }

end Prepare

/-- What a load of an agent that is taken is refused with. -/
def alreadyHolds (endpoint holder : Str) : Thrown :=
  .other (.obj 0 [(js "name", .str (js "CedarEngineError")),
    (js "message", .str (js "cedar engine at " ++ endpoint ++ js " already holds the policy set from " ++ holder ++
      js " — PUT /v1/policies replaces an agent's whole set, so run one CedarPolicyRuleCollector per agent"))])

/-- How the first read is unlike what was pushed, if it is. -/
def unlike (first : AgentSetRead) (pushed : AgentPolicySet) : Option Str :=
  match first with
  | .unverifiable reason => some reason
  | .held held => if sameAgentSet held pushed then none else some (js "GET /v1/policies answers another set")

/-- What a first read that is unlike the push is refused with. -/
def notReadBack (endpoint description why : Str) : Thrown :=
  .other (.obj 0 [(js "name", .str (js "CedarEngineError")),
    (js "message", .str (js "cedar engine at " ++ endpoint ++ js " does not read back the policy set from " ++
      description ++ js " as it accepted it (" ++ why ++
      js ") — the engine reads the set back to tell a changed one (#286), so GET /v1/policies must reach the agent with the token and answer the set it holds; an agent another verifier also pushes to answers that one's set — run one agent per verifier"))])

/-- What the read comes to: rejected, unlike the push, or as pushed with the clock read for the read-back. -/
def readBackOf (job : LoadJob) (pushed : AgentPolicySet) (outcome : Except Thrown AgentSetRead)
    (clock : Except Thrown ℚ) (draw : Option ℚ) : Except Thrown ReadBackSystem := do
  let first ← outcome
  match unlike first pushed with
  | some why => .error (notReadBack job.set.endpoint job.description why)
  | none =>
    let now ← clock
    .ok (ReadBackSystem.createAgentReadBack { pushed, intervalMs := job.readBackIntervalMs } now draw)

namespace HttpEngine

/-- One more load. -/
def add (s : HttpEngine) (job : Option LoadJob) (phase : LoadPhase) : HttpEngine :=
  { s with loads := s.loads ++ [{ job, phase }] }

/-- `loaded.set(agent, source.description)`. -/
def reserve (s : HttpEngine) (job : LoadJob) : HttpEngine :=
  { s with loaded := s.loaded.set job.agent job.description }

/-- `loaded.delete(agent)`. -/
def release (s : HttpEngine) (job : LoadJob) : HttpEngine := { s with loaded := s.loaded.erase job.agent }

/-- A load goes on. -/
def put (s : HttpEngine) (load : Nat) (job : LoadJob) (phase : LoadPhase) : HttpEngine :=
  { s with loads := s.loads.set load { job := some job, phase } }

section Step

variable (platform : Platform)

/-- A call of `load`, up to its first await. The warning stands outside what releases the agent. -/
def start (s : HttpEngine) (call : LoadCall sha256) : HttpEngine :=
  match prepare platform call with
  | .error cause => s.add none (.rejected cause)
  | .ok job =>
    match s.loaded.get? job.agent with
    | some holder => s.add (some job) (.rejected (alreadyHolds job.set.endpoint holder))
    | none =>
      if job.headers.authorization.isSome then (s.reserve job).add (some job) .pushing
      else
        match call.warn with
        | .error cause => (s.reserve job).add (some job) (.rejected cause)
        | .ok _ => (s.reserve job).add (some job) .pushing

/-- After the push. -/
def afterPush (s : HttpEngine) (load : Nat) (job : LoadJob) (outcome : Except Thrown AgentPolicySet) :
    HttpEngine :=
  match outcome with
  | .error cause => (s.release job).put load job (.rejected cause)
  | .ok pushed => s.put load job (.reading pushed)

/-- After the first read. The line about the loaded set stands outside what releases the agent. -/
def afterRead (s : HttpEngine) (load : Nat) (job : LoadJob) (readBack : Except Thrown ReadBackSystem)
    (info : Except Thrown Unit) : HttpEngine :=
  match readBack with
  | .error cause => (s.release job).put load job (.rejected cause)
  | .ok readBack =>
    match info with
    | .error cause => s.put load job (.rejected cause)
    | .ok _ => s.put load job (.resolved readBack)

/-- One turn of the engine's loads. -/
def step (s : HttpEngine) : LoadEvent sha256 → Option HttpEngine
  | .load call => some (s.start platform call)
  | .pushSettled load outcome =>
    match s.loads[load]? with
    | some { job := some job, phase := .pushing } => some (s.afterPush load job outcome)
    | _ => none
  | .readSettled load outcome clock draw info =>
    match s.loads[load]? with
    | some { job := some job, phase := .reading pushed } =>
      some (s.afterRead load job (readBackOf job pushed outcome clock draw) info)
    | _ => none

end Step

end HttpEngine

end PolicyVerifier.Cedar
