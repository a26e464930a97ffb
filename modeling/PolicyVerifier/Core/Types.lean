import PolicyVerifier.Core.Errors
import PolicyVerifier.Lib.OrderedMap

/-!
# The types a decision is made of

Attributes, the evaluation a rule reports, how a rule and a group came out, and the decision.
-/

namespace PolicyVerifier.Core

open Js

/-- The structured form of a resource string. -/
structure Resource where
  raw : Str
  resourceType : Str
  resourceId : Option Str

/-- Attribute keys and the values collectors produced for them. -/
abbrev Attributes := OrderedMap Str Value

/-- The verified attributes of the subject, as the code reads them: the value found under a name,
`undefined` when there is none. -/
abbrev SubjectAttributes := Str → Value

/-- What collectors read. `requestContext` is the caller's own data; the signal and the credential,
which no modelled collector reads, are left out. -/
structure CollectorContext where
  subject : SubjectAttributes
  resource : Resource
  action : Str
  headers : Option (OrderedMap Str Str) := none
  requestContext : Option (List (Str × Value)) := none

/-- Which policy snapshot an evaluation concerned. -/
inductive EvaluatedRevision where
  | revision (revision : Str)
  | unknown (loadedRevision : Option Str)
deriving DecidableEq

/-- The determining policies a completed evaluation names, and how many more there were. -/
structure DeterminingPolicies where
  determiningPolicies : Option (List Str) := none
  determiningPoliciesOmitted : Option Nat := none
deriving DecidableEq

/-- What a rule reports about the evaluation behind one answer. -/
inductive RuleEvaluation where
  | notInvoked
  | completed (revision : EvaluatedRevision) (determining : DeterminingPolicies)
  | failed (revision : EvaluatedRevision)
deriving DecidableEq

/-- The three statuses of an evaluation. -/
inductive RuleEvaluationStatus where
  | completed
  | failed
  | notInvoked
deriving DecidableEq

/-- The word a report spells a status with. -/
def RuleEvaluationStatus.name : RuleEvaluationStatus → Str
  | completed => js "completed"
  | failed => js "failed"
  | notInvoked => js "not_invoked"

/-- The status of an evaluation. -/
def RuleEvaluation.status : RuleEvaluation → RuleEvaluationStatus
  | notInvoked => .notInvoked
  | completed _ _ => .completed
  | failed _ => .failed

/-- How one rule inside a group came out. -/
structure RuleOutcome where
  code : Str
  message : Str
  passed : Bool
  evaluation : Option RuleEvaluation := none
deriving DecidableEq

/-- How one rule group came out: `satisfiedBy` is there exactly on a group that passed. -/
structure RuleGroupOutcome where
  ruleType : Str
  evaluated : List RuleOutcome
  satisfiedBy : Option RuleOutcome
  restricts : Bool
deriving DecidableEq

/-- Whether the group passed. -/
def RuleGroupOutcome.passed (g : RuleGroupOutcome) : Bool := g.satisfiedBy.isSome

/-- Every rule group that was evaluated, in evaluation order. -/
structure DecisionReason where
  groups : List RuleGroupOutcome
deriving DecidableEq

/-- The outcome of an evaluation. -/
inductive Decision where
  | allow (reason : DecisionReason)
  | deny (code message : Str) (reason : DecisionReason)
deriving DecidableEq

namespace Decision

/-- The account a decision carries. -/
def reason : Decision → DecisionReason
  | allow r => r
  | deny _ _ r => r

/-- Whether the decision is an allow. -/
def isAllow : Decision → Bool
  | allow _ => true
  | deny _ _ _ => false

end Decision

end PolicyVerifier.Core
