import Mathlib.Data.List.Sort
import PolicyVerifier.Cedar.Mapping
import PolicyVerifier.Core.Evaluate

/-!
# The rule a Cedar policy set becomes

One rule for the whole policy set: it builds the Cedar request, asks the engine, reads the answer by
a fixed table, and reports how the evaluation behind its boolean went. The engine's answer is a value
of any shape; no log line changes what the rule answers.
-/

namespace PolicyVerifier.Cedar

open Js PolicyVerifier.Core

/-- What the rule answers when no policy determined the request. -/
inductive NoDeterminingPolicy where
  | abstain
  | deny
deriving DecidableEq

/-- What the rule is built from. The engine is what a call of it comes to, so it is handed to the
rule with each call. -/
structure BoundRule where
  ruleType : Str
  onNoDeterminingPolicy : NoDeterminingPolicy
  loadedRevision : Str
  requireConfirmedRevision : Bool
  mapping : ResolvedMapping
  logEvaluationErrors : Bool

/-! ## Log lines -/

/-- Why a call is taken to have failed. -/
inductive CallFailure where
  | threw (cause : Thrown)
  | notDecision
  | notLists
deriving DecidableEq

/-- What a line names, besides the engine, the policy set and the `ruleType` that every line does; its text is left
out. -/
inductive CedarLog where
  | notBuilt (reason : Str)
  | callFailed (reason : CallFailure)
  | evaluationErrors (decision : Value) (errors : List Value)
  | foreignRevision (loadedRevision : Str)
  | foreignAnswer (loadedRevision : Str) (foreign mark : Option Str)
  | allowNamingNone (loadedRevision : Str)
  | revisionNotNamed (loadedRevision : Str)
deriving DecidableEq

/-- The labels an engine may give a foreign answer. -/
def foreignLabels : List Str :=
  [js "unknown policy", js "unreadable policy", js "altered policy set", js "unverifiable policy set"]

/-- `/^[0-9a-f]{16}$/`. -/
def isMark (s : Str) : Bool :=
  s.length == 16 && s.all fun c => (0x30 ≤ c && c ≤ 0x39) || (0x61 ≤ c && c ≤ 0x66)

/-- `foreignDetail`: the label and the mark, each only in its own shape. -/
def foreignDetail (foreign : Value) : Option Str × Option Str :=
  ((foreign.field (js "why")).str?.filter fun why => decide (why ∈ foreignLabels),
    (foreign.field (js "mark")).str?.filter isMark)

/-- Whether the line goes to `faultLogger`, which `logEvaluationErrors` does not govern. -/
def CedarLog.isFault : CedarLog → Bool
  | notBuilt _ => false
  | callFailed _ => false
  | evaluationErrors _ _ => false
  | _ => true

/-- The lines that are written. -/
def written (rule : BoundRule) (lines : List CedarLog) : List CedarLog :=
  lines.filter fun line => line.isFault || rule.logEvaluationErrors

/-! ## The table -/

/-- One answer of the rule: the boolean, what an evaluator is told, and the policies a reporter that
bounds them is told besides, when Cedar ran to an answer. -/
structure Answered where
  passed : Bool
  evaluation : RuleEvaluation
  naming : Option (EvaluatedRevision × List Value) := none
deriving DecidableEq

/-- The answer when Cedar was not asked. -/
def notInvoked : Answered := { passed := false, evaluation := .notInvoked }

/-- A failed answer nobody vouched for. -/
def unconfirmedFailed (rule : BoundRule) : Answered :=
  { passed := false, evaluation := .failed (.unknown (some rule.loadedRevision)) }

/-- `callFailed`. -/
def callFailed (rule : BoundRule) (reason : CallFailure) : Answered × List CedarLog :=
  (unconfirmedFailed rule, [.callFailed reason])

/-- `answer.revision !== undefined && answer.revision !== loadedRevision`, negated. -/
def revisionFits (rule : BoundRule) (answer : Value) : Bool :=
  let revision := answer.field (js "revision")
  decide (revision = .undefined ∨ revision = .str rule.loadedRevision)

/-- Whether the engine named the revision it evaluated. -/
def confirmed (answer : Value) : Bool := decide (answer.field (js "revision") ≠ .undefined)

/-- Whether the engine says the answer is another set's. -/
def isForeign (answer : Value) : Bool :=
  let foreign := answer.field (js "foreign")
  decide (foreign ≠ .undefined ∧ foreign ≠ .null)

/-- The revision an answer is accounted for with. -/
def evaluatedRevision (rule : BoundRule) (answer : Value) : EvaluatedRevision :=
  if confirmed answer then .revision rule.loadedRevision else .unknown (some rule.loadedRevision)

/-- `interpret`: the rule's answer, and the line it logs. -/
def interpret (rule : BoundRule) (answer : Value) : Answered × List CedarLog :=
  if !answer.isObject then callFailed rule .notDecision
  else if !revisionFits rule answer then
    (unconfirmedFailed rule, [.foreignRevision rule.loadedRevision])
  else if isForeign answer then
    let detail := foreignDetail (answer.field (js "foreign"))
    (unconfirmedFailed rule, [.foreignAnswer rule.loadedRevision detail.1 detail.2])
  else
    match (answer.field (js "reason")).items?, (answer.field (js "errors")).items? with
    | some reason, some errors =>
      let decision := answer.field (js "decision")
      if decision = .str (js "allow") ∧ reason = [] then
        (unconfirmedFailed rule, [.allowNamingNone rule.loadedRevision])
      else if rule.requireConfirmedRevision ∧ !confirmed answer then
        (unconfirmedFailed rule, [.revisionNotNamed rule.loadedRevision])
      else if errors ≠ [] then
        ({ passed := false, evaluation := .failed (evaluatedRevision rule answer) },
          [.evaluationErrors decision errors])
      else
        -- From here Cedar is taken to have run to an answer, whatever the decision reads.
        let answered (passed : Bool) : Answered :=
          { passed
            evaluation := .completed (evaluatedRevision rule answer) {}
            naming := some (evaluatedRevision rule answer, reason) }
        if decision = .str (js "allow") then (answered true, [])
        else if reason = [] then (answered (decide (rule.onNoDeterminingPolicy = .abstain)), [])
        else (answered false, [])
    | _, _ => callFailed rule .notLists

/-! ## Delivering an answer -/

/-- The reporter of one call: with the bounding of determining policies of the core that checks the
report, or without, from a core that predates it. -/
inductive Reporter where
  | plain
  | bounding (bound : List Value → DeterminingPolicies)

section Deliver

variable (toStr : Value → Except Thrown Str)

/-- `xs.sort()` on the elements of a list: `undefined` goes last and is not compared. With fewer than
two others nothing is compared, and no element is turned into a string. -/
def sortValues (xs : List Value) : Except Thrown (List Value) :=
  let compared := xs.filter fun v => v ≠ .undefined
  let last := xs.filter fun v => v = .undefined
  if compared.length < 2 then .ok (compared ++ last)
  else do
    let keyed ← compared.mapM fun v => (toStr v).map fun s => (s, v)
    pure ((keyed.insertionSort fun x y => notAfter x.1 y.1 = true).map Prod.snd ++ last)

/-- `naming`: the evaluation with the policies that determined it, each once, sorted and bounded. -/
def naming (bound : List Value → DeterminingPolicies) (revision : EvaluatedRevision)
    (reason : List Value) : Except Thrown RuleEvaluation := do
  let sorted ← sortValues toStr (distinctNames reason)
  pure (.completed revision (bound sorted))

/-- What the reporter of this call is told. -/
def told (answered : Answered) : Reporter → Except Thrown RuleEvaluation
  | .plain => .ok answered.evaluation
  | .bounding bound =>
    match answered.naming with
    | some (revision, reason) => naming toStr bound revision reason
    | none => .ok answered.evaluation

/-- `deliver`: the boolean, and the evaluation for the reporter of this one call. -/
def deliver (answered : Answered) : Option Reporter → Except Thrown (Bool × Option RuleEvaluation)
  | none => .ok (answered.passed, none)
  | some reporter => do
    let evaluation ← told toStr answered reporter
    pure (answered.passed, some evaluation)

/-! ## The two kinds of rule -/

/-- `verify`, over an engine that answers at once. -/
def BoundRule.verify (rule : BoundRule) (isAuthorized : CedarRequest → Except Thrown Value)
    (attrs : Attributes) (reporter : Option Reporter) :
    Except Thrown (Bool × Option RuleEvaluation) :=
  match buildCedarRequest rule.mapping attrs with
  | .error _ => deliver toStr notInvoked reporter
  | .ok request =>
    match isAuthorized request with
    | .error cause => deliver toStr (callFailed rule (.threw cause)).1 reporter
    | .ok answer => deliver toStr (interpret rule answer).1 reporter

/-- `decide`, over an engine whose promise settles as given. A rejection after the signal has aborted
is the abort's. -/
def BoundRule.decide (rule : BoundRule) (isAuthorized : CedarRequest → Except Thrown Value)
    (aborted : Option Thrown) (attrs : Attributes) (reporter : Option Reporter) :
    Except Thrown (Bool × Option RuleEvaluation) :=
  match buildCedarRequest rule.mapping attrs with
  | .error _ => deliver toStr notInvoked reporter
  | .ok request =>
    match isAuthorized request with
    | .error cause =>
      match aborted with
      | some reason => .error reason
      | none => deliver toStr (callFailed rule (.threw cause)).1 reporter
    | .ok answer => deliver toStr (interpret rule answer).1 reporter

/-- The evaluation as the object literal the rule hands its reporter. -/
def reading : RuleEvaluation → Reading
  | .notInvoked => .fields [js "status"] (.str (js "not_invoked")) .undefined .undefined .undefined .undefined
  | .failed revision =>
    let (keys, named, loaded) := revisionFields revision
    .fields (js "status" :: keys) (.str (js "failed")) named loaded .undefined .undefined
  | .completed revision determining =>
    let (keys, named, loaded) := revisionFields revision
    .fields
      (js "status" :: keys ++ (determining.determiningPolicies.map fun _ => js "determiningPolicies").toList ++
        (determining.determiningPoliciesOmitted.map fun _ => js "determiningPoliciesOmitted").toList)
      (.str (js "completed")) named loaded
      ((determining.determiningPolicies.map Value.strings).getD .undefined)
      ((determining.determiningPoliciesOmitted.map fun n => .num (.rat n)).getD .undefined)
where
  /-- The keys and the two values that say which revision was evaluated. -/
  revisionFields : EvaluatedRevision → List Str × Value × Value
    | .revision r => ([js "revision"], .str r, .undefined)
    | .unknown (some l) => ([js "revision", js "loadedRevision"], .null, .str l)
    | .unknown none => ([js "revision"], .null, .undefined)

/-- The report a call makes, when it makes one, and what it answers. -/
def reportAndAnswer (outcome : Except Thrown (Bool × Option RuleEvaluation)) :
    List ReportCall × Except Thrown Value :=
  match outcome with
  | .error e => ([], .error e)
  | .ok (passed, evaluation) =>
    ((evaluation.map fun e => .mk [] (reading e) false).toList, .ok (.bool passed))

/-- `buildRule`: the rule as core asks it, reporting through core's own bounds. -/
def buildRule (rule : BoundRule) (isAsync : Bool) (isAuthorized : CedarRequest → Except Thrown Value)
    (aborted : Option Thrown) : AnyRule :=
  let reporter := some (.bounding boundDeterminingPolicies)
  { ruleType := rule.ruleType
    code := js "cedar_deny"
    message := js "Denied by Cedar policy"
    async := if isAsync then .bool true else .undefined
    verify := fun attrs =>
      let (reports, answer) := reportAndAnswer (rule.verify toStr isAuthorized attrs reporter)
      { reports, answer }
    decide := fun attrs =>
      let (reports, answer) := reportAndAnswer (rule.decide toStr isAuthorized aborted attrs reporter)
      reports.map .report ++ [.settle answer] }

end Deliver

/-- The lines one call writes. -/
def callLog (rule : BoundRule) (isAuthorized : CedarRequest → Except Thrown Value)
    (attrs : Attributes) : List CedarLog :=
  match buildCedarRequest rule.mapping attrs with
  | .error e => written rule [.notBuilt e.message]
  | .ok request =>
    match isAuthorized request with
    | .error cause => written rule (callFailed rule (.threw cause)).2
    | .ok answer => written rule (interpret rule answer).2

end PolicyVerifier.Cedar
