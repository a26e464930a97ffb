import PolicyVerifier.Core.Types
import PolicyVerifier.Server.Failure

/-!
# What is reported of a decision

The `decision` line, the failure lines and the two counters. How long a decision took is measured
outside the model and left out of all of them.
-/

namespace PolicyVerifier.Server

open Js PolicyVerifier.Core

/-- What one rule reported about the evaluation behind its answer. -/
structure ReportedEvaluation where
  ruleType : Str
  code : Str
  passed : Bool
  evaluation : RuleEvaluation
deriving DecidableEq

/-- The group that refused, and every alternative in it that was tried. -/
structure DenyingGroup where
  ruleType : Str
  refused : List Str
deriving DecidableEq

/-- Every evaluation the decision's rules reported, in evaluation order. -/
def reportedEvaluations (decision : Decision) : List ReportedEvaluation :=
  decision.reason.groups.flatMap fun group =>
    group.evaluated.flatMap fun outcome =>
      match outcome.evaluation with
      | some evaluation =>
        [{ ruleType := group.ruleType, code := outcome.code, passed := outcome.passed, evaluation }]
      | none => []

/-- An empty string counts as absent. -/
def present : Option Str → Option Str
  | some [] => none
  | value => value

/-- `satisfiedBy` of a passing group. -/
def satisfyingRule (group : RuleGroupOutcome) : Option NamedRule :=
  group.satisfiedBy.map fun outcome => { ruleType := group.ruleType, code := outcome.code }

/-- What the `decision` line says beyond the outcome: who satisfied an allow, or what refused. -/
inductive EventOutcome where
  | allow (satisfiedBy : List NamedRule)
  | deny (code : Str) (deniedBy : Option DenyingGroup)
deriving DecidableEq

/-- The `decision` line. -/
structure DecisionEvent where
  requestId : Option Str
  sub : Option Str
  resource : Str
  action : Str
  outcome : EventOutcome
  evaluations : Option (List ReportedEvaluation)
deriving DecidableEq

/-- The rules an allow names: one for each group that grants. -/
def satisfiedByOf (decision : Decision) : List NamedRule :=
  decision.reason.groups.flatMap fun group =>
    if group.restricts then [] else (satisfyingRule group).toList

/-- The first failing group. -/
def deniedByOf (decision : Decision) : Option DenyingGroup :=
  (decision.reason.groups.find? fun group => !group.passed).map fun failing =>
    { ruleType := failing.ruleType, refused := failing.evaluated.map RuleOutcome.code }

/-- Builds the `decision` line. -/
def decisionEvent (decision : Decision) (subject : Option Str) (resource action : Str)
    (requestId : Option Str) : DecisionEvent :=
  let evaluations := reportedEvaluations decision
  { requestId := present requestId
    sub := present subject
    resource, action
    outcome :=
      match decision with
      | .allow _ => .allow (satisfiedByOf decision)
      | .deny code _ _ => .deny code (deniedByOf decision)
    evaluations := if 0 < evaluations.length then some evaluations else none }

/-- One line a decision writes. A failure line is a deny's own; `code` is its event name. -/
inductive LogLine where
  | decision (event : DecisionEvent)
  | failure (code : Str) (err : LoggableError) (resource action : Str) (requestId : Option Str)
      (failure : ClassifiedFailure)
deriving DecidableEq

/-- The line is the `decision` line. -/
def LogLine.isDecision : LogLine → Bool
  | decision _ => true
  | failure _ _ _ _ _ _ => false

/-- What the metrics seam is called with. -/
inductive Observation where
  | decision (allowed : Bool) (code : Option Str)
  | collectorFailure (collector : Str) (category : FailureCategory)
deriving DecidableEq

/-- The observation is of a decision. -/
def Observation.isDecision : Observation → Bool
  | decision _ _ => true
  | collectorFailure _ _ => false

/-- The metrics seam: whether it counts collector failures too. -/
structure DecisionMetrics where
  observesCollectorFailures : Bool

/-- What `metrics.observe` is called with. -/
def observe (metrics : Option DecisionMetrics) (decision : Decision) : List Observation :=
  match metrics, decision with
  | none, _ => []
  | some _, .allow _ => [.decision true none]
  | some _, .deny code _ _ => [.decision false (some code)]

/-- Counts a failure a collector is answerable for. -/
def countCollectorFailure (metrics : Option DecisionMetrics) (failure : ClassifiedFailure) :
    List Observation :=
  match failure.collector?, metrics with
  | some collector, some m =>
    if m.observesCollectorFailures then [.collectorFailure collector failure.category] else []
  | _, _ => []

end PolicyVerifier.Server
