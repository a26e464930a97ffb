import PolicyVerifier.Core.RuleEvaluation
import PolicyVerifier.Core.FailureSource
import PolicyVerifier.Lib.Grouping

/-!
# The evaluator

`evaluate` groups the collected rules by `ruleType`, asks the rules of a group until one passes, and
allows when every group passed. Asynchronous rules run one at a time under their budget; what the
clock, the timers and the caller do while one runs is the `World`'s to say.
-/

namespace PolicyVerifier.Core

open Js

/-! ## Budgets -/

def defaultCollectorTimeoutMs : Nat := 2000

def defaultCollectDeadlineMs : Nat := 5000

def defaultCollectorConcurrency : Nat := 8

def defaultRuleTimeoutMs : Nat := defaultCollectorTimeoutMs

def defaultEvaluateDeadlineMs : Nat := defaultCollectDeadlineMs

/-- The largest delay a timer can hold. -/
def maxTimerMs : Nat := 2147483647

/-- A positive whole number, or the fallback when none was given. -/
def positive (value : Option Number) (fallback : Nat) (field : Str) : Except Thrown Nat :=
  match value with
  | none => .ok fallback
  | some n =>
    match n.toInt? with
    | some z => if z < 1 then .error (.notPositive field n) else .ok z.toNat
    | none => .error (.notPositive field n)

/-- A millisecond budget: positive, and small enough for a timer to hold. -/
def timer (value : Option Number) (fallback : Nat) (field : Str) : Except Thrown Nat :=
  match positive value fallback field with
  | .error e => .error e
  | .ok resolved =>
    if maxTimerMs < resolved then .error (.overTimer field (.rat resolved)) else .ok resolved

def resolveRuleTimeoutMs (value : Option Number) : Except Thrown Nat :=
  timer value defaultRuleTimeoutMs (js "ruleTimeoutMs")

def resolveEvaluateDeadlineMs (value : Option Number) : Except Thrown Nat :=
  timer value defaultEvaluateDeadlineMs (js "evaluateDeadlineMs")

/-! ## Rules -/

/-- What a synchronous rule does when it is asked: the reports it makes, and what it answers or
throws once they are made. -/
structure RuleRun where
  reports : List ReportCall := []
  answer : Except Thrown Value

/-- One thing an asynchronous rule does: report, or settle the promise it answers through. -/
inductive RuleAct where
  | report (call : ReportCall)
  | settle (answer : Except Thrown Value)

/-- A rule of either kind: `async` and `restricts` are the markers as the object holds them. A rule
is a function of the attributes. -/
structure AnyRule where
  ruleType : Str
  code : Str
  message : Str
  restricts : Value := .undefined
  async : Value := .undefined
  verify : Attributes → RuleRun
  decide : Attributes → List RuleAct

/-- Tells the two kinds apart: `async` is exactly `true`. -/
def isAsyncRule (rule : AnyRule) : Bool := decide (rule.async = .bool true)

/-- Whether a rule only narrows what the granting rules allow: `restricts` is exactly `true`. -/
def isRestrictingRule (rule : AnyRule) : Bool := decide (rule.restricts = .bool true)

/-- How a `FailureRecord` names a rule. -/
def ruleSource (rule : AnyRule) : FailureSource := .rule rule.ruleType rule.code

/-! ## What a run meets -/

/-- One turn while an asynchronous rule is out: the rule does its next act; the job that reads its
settled answer runs; its timer fires; the caller aborts; or the job of an abort runs. -/
inductive RaceEvent where
  | act
  | answerJob
  | timeout
  | callerAbort (reason : Thrown)
  | abortJob

/-- What one asynchronous rule call meets: the clock when it starts, the reason the caller had
already aborted with, and the turns that follow. -/
structure AsyncTurn where
  now : ℚ
  callerAborted : Option Thrown := none
  events : List RaceEvent

/-- The clock when `evaluate` is called, and what each asynchronous call meets: the calls are
numbered in the order they are made. -/
structure World where
  startedAt : ℚ
  turn : Nat → AnyRule → AsyncTurn

/-- What came of a computation: a value, a throw, or a promise the turns given do not settle. -/
inductive Outcome (α : Type) where
  | done (a : α)
  | threw (e : Thrown)
  | pending
deriving DecidableEq

/-- The two bounds an asynchronous rule runs under, and when the phase is spent. -/
structure RuleBudget where
  ruleTimeoutMs : Nat
  deadlineMs : Nat
  deadlineAt : ℚ

/-- One thing `evaluate` does with a rule. -/
inductive RuleStep where
  | verify (rule : AnyRule)
  | start (rule : AnyRule) (timerMs : ℚ)
  | stop (rule : AnyRule)

/-- What `evaluate` has done so far: how many asynchronous calls it made, what it did with which
rule, and the failures it recorded. -/
structure EvalState where
  asyncCalls : Nat := 0
  trace : List RuleStep := []
  failures : FailureRecord := {}

namespace EvalState

def record (s : EvalState) (error : Thrown) (source : FailureSource) : EvalState :=
  { s with failures := s.failures.record error source }

def log (s : EvalState) (step : RuleStep) : EvalState := { s with trace := s.trace ++ [step] }

end EvalState

/-! ## Asking one rule -/

/-- What a synchronous rule's run comes to: a report that threw uncaught is what the rule threw. -/
def readRun (run : RuleRun) : Except Thrown RuleResult :=
  match RuleInvocation.reportAll .beginRuleInvocation run.reports with
  | (_, .error e) => .error e
  | (invocation, .ok ()) =>
    match run.answer with
    | .error e => .error e
    | .ok answer => invocation.conclude answer

/-- Asks a synchronous rule, recording it as the source of anything it throws. -/
def verifyRule (rule : AnyRule) (attrs : Attributes) (s : EvalState) :
    EvalState × Outcome RuleResult :=
  match readRun (rule.verify attrs) with
  | .ok result => (s.log (.verify rule), .done result)
  | .error e => ((s.log (.verify rule)).record e (ruleSource rule), .threw e)

/-- An asynchronous rule that is out. -/
structure Race where
  acts : List RuleAct
  invocation : RuleInvocation := .beginRuleInvocation
  settled : Option (Except Thrown Value) := none
  own : Option Thrown := none

/-- The rule does its next act: only the first settling of its promise counts. -/
def Race.act (r : Race) : Race :=
  match r.acts with
  | [] => r
  | .report c :: acts => { r with acts, invocation := (r.invocation.report c).1 }
  | .settle o :: acts => { r with acts, settled := r.settled.or (some o) }

/-- What an asynchronous rule is reported as when its budget is spent; `call` is the number of its
call. -/
def expired (rule : AnyRule) (budget : RuleBudget) (remaining : ℚ) (call : Nat) (started : Bool) :
    Thrown :=
  if remaining < budget.ruleTimeoutMs then
    .ruleTimeout (.ruleTimer call)
      { ruleType := rule.ruleType, code := rule.code, timeoutMs := budget.deadlineMs,
        limit := .deadline, started }
  else
    .ruleTimeout (.ruleTimer call)
      { ruleType := rule.ruleType, code := rule.code, timeoutMs := budget.ruleTimeoutMs }

/-- The settled answer is read. After an abort the race has been lost to it: the abort's own job was
queued before the ones that carry the answer on, and a rejection after it is the abort's. -/
def readAnswer (rule : AnyRule) (r : Race) (settled : Except Thrown Value) (s : EvalState) :
    EvalState × Outcome RuleResult :=
  match r.own with
  | some reason => (s, .threw reason)
  | none =>
    let read := match settled with
      | .ok answer => r.invocation.conclude answer
      | .error e => .error e
    match read with
    | .ok result => (s, .done result)
    | .error e => (s.record e (ruleSource rule), .threw e)

/-- The race of a rule's answer against its signal, over the turns given. A timer fires only when no
job is queued, so never between a rule's settling and the reading of its answer. -/
def race (rule : AnyRule) (budget : RuleBudget) (remaining : ℚ) (call : Nat) :
    List RaceEvent → Race → EvalState → EvalState × Outcome RuleResult
  | [], _, s => (s, .pending)
  | .act :: es, r, s => race rule budget remaining call es r.act s
  | .answerJob :: es, r, s =>
    match r.settled with
    | none => race rule budget remaining call es r s
    | some o => readAnswer rule r o s
  | .timeout :: es, r, s =>
    match r.settled with
    | none =>
      let error := expired rule budget remaining call true
      (s.record error (ruleSource rule), .threw error)
    | some _ => race rule budget remaining call es r s
  | .callerAbort reason :: es, r, s =>
    match r.settled with
    | none => (s, .threw reason)
    | some _ => race rule budget remaining call es { r with own := r.own.or (some reason) } s
  | .abortJob :: es, r, s =>
    match r.own with
    | none => race rule budget remaining call es r s
    | some reason => (s, .threw reason)

/-- Runs one asynchronous rule under the shorter of its own budget and what is left of the phase. It
is not started when the caller has left or the phase is spent. -/
def runAsyncRule (world : World) (rule : AnyRule) (attrs : Attributes) (budget : RuleBudget)
    (s : EvalState) : EvalState × Outcome RuleResult :=
  let call := s.asyncCalls
  let turn := world.turn call rule
  let s := { s with asyncCalls := call + 1 }
  match turn.callerAborted with
  | some reason => (s, .threw reason)
  | none =>
    let remaining := budget.deadlineAt - turn.now
    if remaining ≤ 0 then
      let error := expired rule budget remaining call false
      (s.record error (ruleSource rule), .threw error)
    else
      let timerMs := if remaining < budget.ruleTimeoutMs then remaining else budget.ruleTimeoutMs
      match race rule budget remaining call turn.events { acts := rule.decide attrs }
        (s.log (.start rule timerMs)) with
      | (s, .pending) => (s, .pending)
      | (s, settled) => (s.log (.stop rule), settled)

/-- Asks a rule of either kind. -/
def askRule (world : World) (rule : AnyRule) (attrs : Attributes) (budget : RuleBudget)
    (s : EvalState) : EvalState × Outcome RuleResult :=
  if isAsyncRule rule then runAsyncRule world rule attrs budget s else verifyRule rule attrs s

/-! ## Groups -/

/-- How a rule that answered is listed. -/
def outcomeOf (rule : AnyRule) (result : RuleResult) : RuleOutcome :=
  { code := rule.code, message := rule.message, passed := result.passed,
    evaluation := result.evaluation }

/-- Evaluates one group from its rules still to be asked; `evaluated` lists the ones that were. The
group is an OR: it stops at the first rule that passes. -/
def evaluateGroup (world : World) (ruleType : Str) (restricts : Bool) (attrs : Attributes)
    (budget : RuleBudget) :
    List AnyRule → List RuleOutcome → EvalState → EvalState × Outcome RuleGroupOutcome
  | [], evaluated, s => (s, .done { ruleType, evaluated, satisfiedBy := none, restricts })
  | rule :: rules, evaluated, s =>
    match askRule world rule attrs budget s with
    | (s, .done result) =>
      let outcome := outcomeOf rule result
      if result.passed then
        (s, .done { ruleType, evaluated := evaluated ++ [outcome], satisfiedBy := some outcome,
                    restricts })
      else evaluateGroup world ruleType restricts attrs budget rules (evaluated ++ [outcome]) s
    | (s, .threw e) => (s, .threw e)
    | (s, .pending) => (s, .pending)

/-- Evaluates the groups in order, every one of them, after a failing one too. -/
def evaluateGroups (world : World) (restrictingTypes : List Str) (attrs : Attributes)
    (budget : RuleBudget) :
    List (Str × List AnyRule) → EvalState → EvalState × Outcome (List RuleGroupOutcome)
  | [], s => (s, .done [])
  | (ruleType, rules) :: groups, s =>
    match evaluateGroup world ruleType (decide (ruleType ∈ restrictingTypes)) attrs budget rules []
      s with
    | (s, .done outcome) =>
      match evaluateGroups world restrictingTypes attrs budget groups s with
      | (s, .done outcomes) => (s, .done (outcome :: outcomes))
      | (s, .threw e) => (s, .threw e)
      | (s, .pending) => (s, .pending)
    | (s, .threw e) => (s, .threw e)
    | (s, .pending) => (s, .pending)

/-- What a group that mixes the two kinds of rule is refused with. -/
def mixedGroup : Thrown :=
  .typeError (js "evaluate: a rule group mixes restricting rules with granting ones. A group is an OR, so a restricting rule that passed would satisfy it in place of the grant; give the restricting rules a ruleType of their own.")

/-- The `ruleType`s of the groups whose rules restrict. A group that mixes the two kinds is refused,
and recorded under its own key and the code of its first rule. -/
def restrictingGroups :
    List (Str × List AnyRule) → EvalState → EvalState × Outcome (List Str)
  | [], s => (s, .done [])
  | (ruleType, groupRules) :: groups, s =>
    let restricting := (groupRules.filter isRestrictingRule).length
    if 0 < restricting ∧ restricting < groupRules.length then
      let code := (groupRules.head?.map AnyRule.code).getD []
      (s.record mixedGroup (.rule ruleType code), .threw mixedGroup)
    else
      match restrictingGroups groups s with
      | (s, .done types) => (s, .done (if 0 < restricting then ruleType :: types else types))
      | (s, refused) => (s, refused)

/-- A deny names the first failing group, by the first rule that was asked in it. -/
def conclude (outcomes : List RuleGroupOutcome) : Decision :=
  let reason : DecisionReason := { groups := outcomes }
  match outcomes.find? fun group => !group.passed with
  | some firstFailure =>
    match firstFailure.evaluated with
    | representative :: _ => .deny representative.code representative.message reason
    | [] => .deny [] [] reason
  | none => .allow reason

/-! ## The evaluator -/

/-- The options `evaluate` reads. The caller's signal is in the `World`. -/
structure EvaluateOptions where
  onEmptyRuleSet : Value := .undefined
  ruleTimeoutMs : Option Number := none
  evaluateDeadlineMs : Option Number := none

/-- The deny returned when no granting rule applied to the request. -/
def noApplicableRule : Decision :=
  .deny (js "no_applicable_rule") (js "No applicable rule was collected for this request")
    { groups := [] }

/-- The part of `evaluate` under the resolved budget. -/
def evaluateWithin (world : World) (attrs : Attributes) (rules : List AnyRule)
    (onEmptyRuleSet : Value) (budget : RuleBudget) (s : EvalState) :
    EvalState × Outcome Decision :=
  let groups := (OrderedMap.groupBy AnyRule.ruleType rules).entries
  match restrictingGroups groups s with
  | (s, .threw e) => (s, .threw e)
  | (s, .pending) => (s, .pending)
  | (s, .done restrictingTypes) =>
    if ¬ restrictingTypes.length < groups.length ∧ onEmptyRuleSet ≠ .str (js "allow") then
      (s, .done noApplicableRule)
    else
      match evaluateGroups world restrictingTypes attrs budget groups s with
      | (s, .done outcomes) => (s, .done (conclude outcomes))
      | (s, .threw e) => (s, .threw e)
      | (s, .pending) => (s, .pending)

/-- Evaluates collected rules against attributes. -/
def evaluate (world : World) (attrs : Attributes) (rules : List AnyRule) (options : EvaluateOptions)
    (failures : FailureRecord) : EvalState × Outcome Decision :=
  match resolveRuleTimeoutMs options.ruleTimeoutMs with
  | .error e => ({ failures }, .threw e)
  | .ok ruleTimeoutMs =>
    match resolveEvaluateDeadlineMs options.evaluateDeadlineMs with
    | .error e => ({ failures }, .threw e)
    | .ok deadlineMs =>
      evaluateWithin world attrs rules options.onEmptyRuleSet
        { ruleTimeoutMs, deadlineMs, deadlineAt := world.startedAt + deadlineMs } { failures }

end PolicyVerifier.Core
