import Mathlib.Logic.Function.Iterate
import PolicyVerifier.Core.Evaluate

/-!
# What the evaluator is for

The decision a list of answered rules should come to, said without running anything: the groups, the
rules of each that have to be asked, and which rule a denial names.
-/

namespace PolicyVerifier.Core

open Js

/-- A rule as a decision sees it: its names, its kind, and what it answers. -/
structure Answered where
  ruleType : Str
  code : Str
  message : Str
  restricts : Bool
  result : RuleResult

namespace Answered

/-- A rule with its answer. -/
def of (ans : AnyRule → RuleResult) (rule : AnyRule) : Answered :=
  { ruleType := rule.ruleType, code := rule.code, message := rule.message,
    restricts := isRestrictingRule rule, result := ans rule }

def passed (r : Answered) : Bool := r.result.passed

/-- How the rule is listed once it was asked. -/
def outcome (r : Answered) : RuleOutcome :=
  { code := r.code, message := r.message, passed := r.result.passed,
    evaluation := r.result.evaluation }

end Answered

/-- The rules of one `ruleType`, in collection order. -/
def groupOf (ruleType : Str) (rules : List Answered) : List Answered :=
  rules.filter fun r => r.ruleType = ruleType

/-- How a group comes out: either one rule passes and every earlier one failed, and the rules up to
it are listed, or none passes and all are listed. -/
inductive IsGroupOutcome (group : List Answered) (o : RuleGroupOutcome) : Prop where
  | passed (failing : List Answered) (rule : Answered) (rest : List Answered)
      (split : group = failing ++ rule :: rest)
      (failed : ∀ r ∈ failing, r.passed = false) (passes : rule.passed = true)
      (evaluated : o.evaluated = (failing ++ [rule]).map Answered.outcome)
      (satisfiedBy : o.satisfiedBy = some rule.outcome)
  | failed (failed : ∀ r ∈ group, r.passed = false)
      (evaluated : o.evaluated = group.map Answered.outcome) (satisfiedBy : o.satisfiedBy = none)

/-- Some rule grants, or the deployment opted out of default-deny. -/
def Applicable (onEmptyRuleSet : Value) (rules : List Answered) : Prop :=
  (∃ r ∈ rules, r.restricts = false) ∨ onEmptyRuleSet = .str (js "allow")

/-- The decision a list of answered rules should come to. -/
structure ReferenceDecision (onEmptyRuleSet : Value) (rules : List Answered) (d : Decision) :
    Prop where
  allow_iff : d.isAllow = true ↔ Applicable onEmptyRuleSet rules ∧
    ∀ r ∈ rules, ∃ q ∈ rules, q.ruleType = r.ruleType ∧ q.passed = true
  no_grant : ¬ Applicable onEmptyRuleSet rules → d = noApplicableRule
  groups : Applicable onEmptyRuleSet rules →
    List.Forall₂ (fun ruleType o => o.ruleType = ruleType ∧
        o.restricts = (groupOf ruleType rules).any Answered.restricts ∧
        IsGroupOutcome (groupOf ruleType rules) o)
      (OrderedMap.firsts Answered.ruleType rules) d.reason.groups
  denial : Applicable onEmptyRuleSet rules → ∀ code message reason,
    d = .deny code message reason → ∃ before ruleType after first rest,
      OrderedMap.firsts Answered.ruleType rules = before ++ ruleType :: after ∧
      (∀ t ∈ before, ∃ q ∈ groupOf t rules, q.passed = true) ∧
      groupOf ruleType rules = first :: rest ∧
      (∀ q ∈ groupOf ruleType rules, q.passed = false) ∧
      code = first.code ∧ message = first.message

/-! ## When a rule answers -/

/-- The rule answers `result`: for an asynchronous rule, whenever its settled answer is read it reads
as `result`, however many of its acts came before. -/
def Answers (attrs : Attributes) (rule : AnyRule) (result : RuleResult) : Prop :=
  if isAsyncRule rule then
    ∀ acts o, (Race.act^[acts] { acts := rule.decide attrs }).settled = some o →
      ∃ answer, o = .ok answer ∧
        (Race.act^[acts] { acts := rule.decide attrs }).invocation.conclude answer = .ok result
  else readRun (rule.verify attrs) = .ok result

/-- The call is started with time left, and its answer is settled and read before anything else
happens. -/
def InTime (attrs : Attributes) (rule : AnyRule) (deadlineAt : ℚ) (turn : AsyncTurn) : Prop :=
  turn.callerAborted = none ∧ turn.now < deadlineAt ∧
    ∃ acts rest, turn.events = List.replicate acts .act ++ .answerJob :: rest ∧
      (Race.act^[acts] { acts := rule.decide attrs }).settled.isSome = true

/-- Rules of one `ruleType` are of one kind. -/
def NoMixedGroup (rules : List AnyRule) : Prop :=
  ∀ r ∈ rules, ∀ q ∈ rules, r.ruleType = q.ruleType → isRestrictingRule r = isRestrictingRule q

end PolicyVerifier.Core
