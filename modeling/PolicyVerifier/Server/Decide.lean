import PolicyVerifier.Core.Pipelines
import PolicyVerifier.Server.DecisionEvent

/-!
# One decision

`decide` as a machine over the two fan-outs it joins. Its own promise jobs are the two `collect`s
settling, `Promise.all` seeing each of them, and the body going on from there: it evaluates what was
collected, or sorts the failure into a deny or a fault. What happens inside `evaluate` is the
`World`'s. The fan-outs go on after the decision has settled.
-/

namespace PolicyVerifier.Server

open Js PolicyVerifier.Core

/-- One validated entry: the resource and the action as sent. -/
structure DecisionRequest where
  resource : Str
  action : Str

/-- Who is asking, and how the decision is correlated. -/
structure DecisionInput where
  subject : SubjectAttributes
  requestId : Option Str := none

/-- What every decision shares. -/
structure DeciderConfig where
  attributePipeline : Pipeline .attributes Attributes
  rulePipeline : Pipeline .rules (List AnyRule)
  onEmptyRuleSet : Value := .undefined
  ruleTimeoutMs : Number
  evaluateDeadlineMs : Number
  includeEvaluation : Bool := false
  metrics : Option DecisionMetrics := none

/-- The options `decide` hands to the evaluator. -/
def DeciderConfig.evaluateOptions (cfg : DeciderConfig) : EvaluateOptions :=
  { onEmptyRuleSet := cfg.onEmptyRuleSet
    ruleTimeoutMs := some cfg.ruleTimeoutMs
    evaluateDeadlineMs := some cfg.evaluateDeadlineMs }

/-- What the endpoint decided, and for whom. -/
structure DecisionResponse where
  subject : Option Str
  resource : Str
  action : Str
  decision : Decision
deriving DecidableEq

/-- What a decision that could not be made throws. -/
structure DecisionFault where
  original : Thrown
  failure : ClassifiedFailure
deriving DecidableEq

/-! ## The response -/

/-- The outcome with its evaluation left out, and nothing else. -/
def withoutEvaluation (outcome : RuleOutcome) : RuleOutcome := { outcome with evaluation := none }

/-- The reason with every outcome's evaluation left out. -/
def withoutEvaluations (reason : DecisionReason) : DecisionReason :=
  { groups := reason.groups.map fun group =>
      let evaluated := group.evaluated.map withoutEvaluation
      if group.passed then { group with evaluated, satisfiedBy := evaluated.getLast? }
      else { group with evaluated } }

/-- The same decision on another account of it. -/
def withReason (decision : Decision) (reason : DecisionReason) : Decision :=
  match decision with
  | .allow _ => .allow reason
  | .deny code message _ => .deny code message reason

/-- The `sub` the decision is about, when the token carries one. -/
def subjectId (input : DecisionInput) : Option Str :=
  match input.subject (js "sub") with
  | .str sub => present (some sub)
  | _ => none

/-- Projects a decision onto the wire contract. -/
def toResponse (subject : Option Str) (entry : DecisionRequest) (decision : Decision)
    (includeEvaluation : Bool) : DecisionResponse :=
  { subject, resource := entry.resource, action := entry.action
    decision := withReason decision
      (if includeEvaluation then decision.reason else withoutEvaluations decision.reason) }

/-! ## The machine -/

/-- The state of one `decide` call. `attrs` and `rules` are what the two `collect`s settled with,
`seenAttrs` and `seenRules` what `Promise.all` has of them, `joined` what it settled with, `evaluated`
the calls of `evaluate`, `caught` what the catch block caught. -/
structure Deciding where
  attributeFanOut : FanOut Attributes
  ruleFanOut : FanOut (List AnyRule)
  attrs : Option (Except Thrown Attributes) := none
  rules : Option (Except Thrown (List AnyRule)) := none
  seenAttrs : Option Attributes := none
  seenRules : Option (List AnyRule) := none
  joined : Option (Except Thrown (Attributes × List AnyRule)) := none
  evaluated : List (Attributes × List AnyRule) := []
  caught : Option Thrown := none
  failures : FailureRecord := {}
  logs : List LogLine := []
  observations : List Observation := []
  settled : Option (Except DecisionFault DecisionResponse) := none

/-- What can happen next: in either fan-out, at the caller's, or a job of `decide`'s own. -/
inductive DecideEvent where
  | attributes (e : FanOutEvent Attributes)
  | rules (e : FanOutEvent (List AnyRule))
  | callerAbort (reason : Thrown)
  | attributesCollected
  | rulesCollected
  | joinAttributes
  | joinRules
  | proceed (world : World)

namespace Deciding

/-- Both collects have been called. -/
def start (cfg : DeciderConfig) (callerAborted : Option Thrown) : Deciding :=
  { attributeFanOut := FanOut.start cfg.attributePipeline.fanOut callerAborted
    ruleFanOut := FanOut.start cfg.rulePipeline.fanOut callerAborted }

/-- Records a failure, if the event recorded one. -/
def record (s : Deciding) (failure : Option (Thrown × FailureSource)) : Deciding :=
  match failure with
  | some (error, source) => { s with failures := s.failures.record error source }
  | none => s

/-- `Promise.all` settles once, when one `collect` has rejected or both have been seen. -/
def join (s : Deciding) (o : Except Thrown (Attributes × List AnyRule)) : Deciding :=
  { s with joined := s.joined.or (some o) }

def joinBoth (s : Deciding) : Deciding :=
  match s.seenAttrs, s.seenRules with
  | some attrs, some rules => s.join (.ok (attrs, rules))
  | _, _ => s

/-- The decision was made: it is reported once and answered. -/
def finish (cfg : DeciderConfig) (entry : DecisionRequest) (input : DecisionInput) (s : Deciding)
    (decision : Decision) : Deciding :=
  let subject := subjectId input
  { s with
    logs := s.logs ++
      [.decision (decisionEvent decision subject entry.resource entry.action input.requestId)]
    observations := s.observations ++ observe cfg.metrics decision
    settled := some (.ok (toResponse subject entry decision cfg.includeEvaluation)) }

/-- The catch block: three failures are denies of their own, anything else is a fault. -/
def fail (cfg : DeciderConfig) (entry : DecisionRequest) (input : DecisionInput) (s : Deciding)
    (cause : Thrown) : Deciding :=
  let s := { s with caught := some cause }
  let failure := classifyFailure cause s.failures
  match deniedFailures failure.category with
  | none => { s with settled := some (.error { original := cause, failure }) }
  | some denial =>
    let s := { s with
      logs := s.logs ++ [.failure denial.code (loggableError cause failure) entry.resource
        entry.action input.requestId failure]
      observations := s.observations ++ countCollectorFailure cfg.metrics failure }
    finish cfg entry input s (.deny denial.code denial.message { groups := [] })

/-- The body goes on from what the two collects came to. -/
def proceed (cfg : DeciderConfig) (entry : DecisionRequest) (input : DecisionInput) (s : Deciding)
    (world : World) : Except Thrown (Attributes × List AnyRule) → Deciding
  | .error cause => fail cfg entry input s cause
  | .ok (attrs, rules) =>
    let s := { s with evaluated := s.evaluated ++ [(attrs, rules)] }
    match evaluate world attrs rules cfg.evaluateOptions s.failures with
    | (final, .done decision) =>
      finish cfg entry input { s with failures := final.failures } decision
    | (final, .threw cause) => fail cfg entry input { s with failures := final.failures } cause
    | (final, .pending) => { s with failures := final.failures }

/-- One event. A failure of either fan-out is recorded as it happens. -/
def step (cfg : DeciderConfig) (entry : DecisionRequest) (input : DecisionInput) (s : Deciding) :
    DecideEvent → Option Deciding
  | .attributes (.callerAbort _) => none
  | .attributes e =>
    (FanOut.step cfg.attributePipeline.fanOut s.attributeFanOut e).map fun f =>
      { s.record (FanOut.records cfg.attributePipeline.fanOut s.attributeFanOut e) with
        attributeFanOut := f }
  | .rules (.callerAbort _) => none
  | .rules e =>
    (FanOut.step cfg.rulePipeline.fanOut s.ruleFanOut e).map fun f =>
      { s.record (FanOut.records cfg.rulePipeline.fanOut s.ruleFanOut e) with ruleFanOut := f }
  | .callerAbort reason =>
    (FanOut.step cfg.attributePipeline.fanOut s.attributeFanOut (.callerAbort reason)).bind fun f =>
      (FanOut.step cfg.rulePipeline.fanOut s.ruleFanOut (.callerAbort reason)).map fun g =>
        { s with attributeFanOut := f, ruleFanOut := g }
  | .attributesCollected =>
    match s.attributeFanOut.outcome, s.attrs with
    | some o, none => some { s with attrs := some (collectAttributes o) }
    | _, _ => none
  | .rulesCollected =>
    match s.ruleFanOut.outcome, s.rules with
    | some o, none => some { s with rules := some (collectRules o) }
    | _, _ => none
  | .joinAttributes =>
    match s.attrs, s.seenAttrs with
    | some (.ok attrs), none => some (joinBoth { s with seenAttrs := some attrs })
    | some (.error e), _ => some (s.join (.error e))
    | _, _ => none
  | .joinRules =>
    match s.rules, s.seenRules with
    | some (.ok rules), none => some (joinBoth { s with seenRules := some rules })
    | some (.error e), _ => some (s.join (.error e))
    | _, _ => none
  | .proceed world =>
    match s.joined, s.evaluated, s.settled with
    | some o, [], none => some (proceed cfg entry input s world o)
    | _, _, _ => none

end Deciding

end PolicyVerifier.Server
