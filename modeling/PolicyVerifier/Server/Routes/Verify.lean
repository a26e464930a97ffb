import PolicyVerifier.Server.Routes.VerifyBatch

/-!
# `POST /verify`, and the decisions of a batch

Both routes with the `decide` calls they make: each call is the machine of one decision, fed by its own
events, and what the handler goes on with is what that machine settled with. The caller leaving aborts
every call that is out.
-/

namespace PolicyVerifier.Server

open Js PolicyVerifier.Core

/-- What the router is built with, its bounds as they were resolved. The pipelines' collectors act as they are
called: on an entry, for a subject. -/
structure RouterConfig where
  resourceParser : Str → ParseOutcome
  limits : RequestLimits
  maxBatchSize : Nat
  batchable : 0 < maxBatchSize
  batchConcurrency : Nat
  concurrent : 0 < batchConcurrency
  attributePipeline : ValidatedDecisionRequest → DecisionInput → Pipeline .attributes Attributes
  rulePipeline : ValidatedDecisionRequest → DecisionInput → Pipeline .rules (List AnyRule)
  onEmptyRuleSet : Value := .undefined
  ruleTimeoutMs : Number
  evaluateDeadlineMs : Number
  includeEvaluation : Bool := false
  metrics : Option DecisionMetrics := none

namespace RouterConfig

/-- `createDecider`, for one call. -/
def decider (cfg : RouterConfig) (entry : ValidatedDecisionRequest) (input : DecisionInput) : DeciderConfig :=
  { attributePipeline := cfg.attributePipeline entry input
    rulePipeline := cfg.rulePipeline entry input
    onEmptyRuleSet := cfg.onEmptyRuleSet
    ruleTimeoutMs := cfg.ruleTimeoutMs
    evaluateDeadlineMs := cfg.evaluateDeadlineMs
    includeEvaluation := cfg.includeEvaluation
    metrics := cfg.metrics }

/-- What one batch request is held to. -/
def batch (cfg : RouterConfig) (requestId : Option Str) : BatchConfig :=
  { resourceParser := cfg.resourceParser
    limits := cfg.limits
    maxBatchSize := cfg.maxBatchSize
    batchConcurrency := cfg.batchConcurrency
    metrics := cfg.metrics
    requestId }

/-- One event of a decision that is out. -/
def decideStep (cfg : RouterConfig) (entry : ValidatedDecisionRequest) (input : DecisionInput) :
    Deciding → DecideEvent → Option Deciding :=
  Deciding.step (cfg.decider entry input) entry.request input

/-- `decide` is called, under a signal that may have aborted. -/
def decideStart (cfg : RouterConfig) (entry : ValidatedDecisionRequest) (input : DecisionInput)
    (aborted : Option Thrown) : Deciding :=
  Deciding.start (cfg.decider entry input) aborted

/-- The caller's signal aborts a decision. -/
def decideAbort (cfg : RouterConfig) (entry : ValidatedDecisionRequest) (input : DecisionInput)
    (reason : Thrown) (d : Deciding) : Deciding :=
  (cfg.decideStep entry input d (.callerAbort reason)).getD d

end RouterConfig

/-! ## `POST /verify` -/

/-- The `decide` call of one request. -/
structure DecisionCall where
  entry : ValidatedDecisionRequest
  input : DecisionInput
  deciding : Deciding

/-- What `/verify` answers with: the envelope, or the decision. -/
inductive VerifyAnswer where
  | envelope (answer : Answer)
  | decision (response : DecisionResponse)

/-- The status of an answer: a deny is a 403. -/
def VerifyAnswer.status : VerifyAnswer → Nat
  | envelope answer => answer.status
  | decision response => if response.decision.isAllow then 200 else 403

/-- The state of one request. -/
structure Verify where
  phase : BatchPhase := .returned
  entry : Option ValidatedDecisionRequest := none
  aborted : Option Thrown := none
  authentications : Nat := 0
  call : Option DecisionCall := none
  answers : List VerifyAnswer := []
  lines : List RouteLine := []
  observations : List Observation := []

/-- What can happen next. -/
inductive VerifyEvent where
  | authenticated (o : Except Thrown AuthenticationResult)
  | decide (e : DecideEvent)
  | proceed
  | close (reason : Thrown)

namespace Verify

/-- The handler answers and returns. -/
def answer (s : Verify) (a : VerifyAnswer) : Verify := { s with phase := .returned, answers := s.answers ++ [a] }

/-- The catch block. -/
def caught (cfg : RouterConfig) (s : Verify) (cause : Thrown) (failure : ClassifiedFailure) : Verify :=
  if s.aborted = some cause then { s with phase := .returned, lines := s.lines ++ [.callerGone] }
  else
    Verify.answer
      { s with
        lines := s.lines ++ [.internalError (loggableError cause failure) failure]
        observations := s.observations ++ countCollectorFailure cfg.metrics failure }
      (.envelope .internalError)

/-- The handler up to its first `await`: the body before the token. -/
def start (cfg : RouterConfig) (body : Value) : Verify :=
  match parseDecisionRequest cfg.resourceParser cfg.limits body (js "body") with
  | .refused error => ({} : Verify).answer (.envelope (.invalidRequest error))
  | .threw cause => ({} : Verify).caught cfg cause .internal
  | .ok entry => { phase := .authenticating, entry := some entry, authentications := 1 }

/-- The handler goes on from the authenticator's answer. -/
def authenticated (cfg : RouterConfig) (requestId : Option Str) (s : Verify)
    (entry : ValidatedDecisionRequest) : Except Thrown AuthenticationResult → Verify
  | .error cause => s.caught cfg cause .internal
  | .ok (.refused code message) => s.answer (.envelope (.unauthenticated code message))
  | .ok (.accepted subject) =>
    let input : DecisionInput := { subject, requestId }
    { s with
      phase := .deciding
      call := some { entry, input, deciding := cfg.decideStart entry input s.aborted } }

/-- One event. A decision's fan-outs go on after the handler has returned. -/
def step (cfg : RouterConfig) (requestId : Option Str) (s : Verify) : VerifyEvent → Option Verify
  | .authenticated o =>
    match s.phase, s.entry with
    | .authenticating, some entry => some (s.authenticated cfg requestId entry o)
    | _, _ => none
  | .decide (.callerAbort _) => none
  | .decide e =>
    s.call.bind fun call =>
      (cfg.decideStep call.entry call.input call.deciding e).map fun deciding =>
        { s with call := some { call with deciding } }
  | .proceed =>
    match s.phase, s.call.bind fun call => call.deciding.settled with
    | .deciding, some (.ok response) => some (s.answer (.decision response))
    | .deciding, some (.error fault) => some (s.caught cfg fault.original fault.failure)
    | _, _ => none
  | .close reason =>
    some
      { s with
        aborted := s.aborted.or (some reason)
        call := s.call.map fun call =>
          { call with deciding := cfg.decideAbort call.entry call.input reason call.deciding } }

end Verify

/-! ## `POST /verify/batch` -/

/-- The state of a batch request with its decisions: one machine for each `decide` call, in the order of
the calls. -/
structure BatchDecisions where
  batch : Batch
  deciding : List Deciding

/-- What can happen next: at the handler, in a decision, or a decision settling. -/
inductive BatchDecisionsEvent where
  | handler (e : BatchEvent)
  | decide (i : Nat) (e : DecideEvent)
  | settled (i : Nat)

namespace BatchDecisions

/-- The calls the handler has made since are decisions that begin. -/
def follow (cfg : RouterConfig) (deciding : List Deciding) (batch : Batch) : BatchDecisions :=
  { batch
    deciding := deciding ++ (batch.calls.drop deciding.length).map fun call =>
      cfg.decideStart call.entry call.input batch.aborted }

/-- The handler up to its first `await`. -/
def start (cfg : RouterConfig) (requestId : Option Str) (body : Value) : BatchDecisions :=
  { batch := Batch.start (cfg.batch requestId) body, deciding := [] }

/-- The decisions that are out, once the caller has left. -/
def abort (cfg : RouterConfig) (s : BatchDecisions) (reason : Thrown) : List Deciding :=
  List.zipWith (fun call d => cfg.decideAbort call.entry call.input reason d) s.batch.calls s.deciding

/-- One event. What a call settles with is what its decision settled with. -/
def step (cfg : RouterConfig) (requestId : Option Str) (s : BatchDecisions) :
    BatchDecisionsEvent → Option BatchDecisions
  | .handler (.settle _ _) => none
  | .handler (.close reason) =>
    (Batch.step (cfg.batch requestId) s.batch (.close reason)).map (follow cfg (s.abort cfg reason))
  | .handler e => (Batch.step (cfg.batch requestId) s.batch e).map (follow cfg s.deciding)
  | .decide _ (.callerAbort _) => none
  | .decide i e =>
    match s.batch.calls[i]?, s.deciding[i]? with
    | some call, some d =>
      (cfg.decideStep call.entry call.input d e).map fun d => { s with deciding := s.deciding.set i d }
    | _, _ => none
  | .settled i =>
    (s.deciding[i]?.bind fun d => d.settled).bind fun o =>
      (Batch.step (cfg.batch requestId) s.batch (.settle i o)).map fun batch => { s with batch }

end BatchDecisions

end PolicyVerifier.Server
