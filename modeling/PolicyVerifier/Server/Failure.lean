import PolicyVerifier.Core.FailureSource

/-!
# What kept a decision from being made

The failure categories, how a failure is sorted into one, and the error a failure line carries.
-/

namespace PolicyVerifier.Server

open Js PolicyVerifier.Core

/-- How the engine names one rule. -/
structure NamedRule where
  ruleType : Str
  code : Str
deriving DecidableEq

/-- Every value `category` can take. -/
inductive FailureCategory where
  | collectorTimeout
  | collectorThrew
  | attributeConflict
  | ruleTimeout
  | ruleThrew
  | bodyRejected
  | internal
deriving DecidableEq

/-- The word a failure line spells a category with. -/
def FailureCategory.name : FailureCategory → Str
  | collectorTimeout => js "collector_timeout"
  | collectorThrew => js "collector_threw"
  | attributeConflict => js "attribute_conflict"
  | ruleTimeout => js "rule_timeout"
  | ruleThrew => js "rule_threw"
  | bodyRejected => js "body_rejected"
  | internal => js "internal"

/-- A failure, sorted. The collector or the rule is named exactly when the category has one. -/
inductive ClassifiedFailure where
  | collectorTimeout (collector : Str)
  | collectorThrew (collector : Str)
  | ruleTimeout (rule : NamedRule)
  | ruleThrew (rule : NamedRule)
  | attributeConflict
  | bodyRejected
  | internal
deriving DecidableEq

namespace ClassifiedFailure

def category : ClassifiedFailure → FailureCategory
  | collectorTimeout _ => .collectorTimeout
  | collectorThrew _ => .collectorThrew
  | ruleTimeout _ => .ruleTimeout
  | ruleThrew _ => .ruleThrew
  | attributeConflict => .attributeConflict
  | bodyRejected => .bodyRejected
  | internal => .internal

/-- `failure.collector`, when there is one. -/
def collector? : ClassifiedFailure → Option Str
  | collectorTimeout c => some c
  | collectorThrew c => some c
  | _ => none

/-- `failure.rule`, when there is one. -/
def rule? : ClassifiedFailure → Option NamedRule
  | ruleTimeout r => some r
  | ruleThrew r => some r
  | _ => none

end ClassifiedFailure

/-- The collector named when no runner recorded one. -/
def unattributed : Str := js "unattributed"

/-- What an identity that is not identifier-shaped is logged as. -/
def redacted : Str := js "redacted"

def isLetter (u : UInt16) : Bool := (65 ≤ u && u ≤ 90) || (97 ≤ u && u ≤ 122)

/-- A code unit `IDENTIFIER` allows after the first. -/
def isIdentifierPart (u : UInt16) : Bool :=
  isLetter u || (48 ≤ u && u ≤ 57) || u == 95 || u == 46 || u == 45

/-- `IDENTIFIER`: a letter and up to 63 letters, digits, `_`, `.` or `-`. -/
def isIdentifier : Str → Bool
  | [] => false
  | u :: us => isLetter u && us.all isIdentifierPart && decide (us.length ≤ 63)

def identifier (value : Str) : Str := if isIdentifier value then value else redacted

/-- The collector a recorded source names: one entry, a pipeline's whole list, or nobody. -/
def collectorName : Option FailureSource → Str
  | some (.collector _ collector) => collector
  | some (.deadline pipeline) => pipeline.name ++ js ".collectors"
  | _ => unattributed

/-- The rule a recorded source names, each part held to the identifier shape. -/
def ruleName : Option FailureSource → NamedRule
  | some (.rule ruleType code) => { ruleType := identifier ruleType, code := identifier code }
  | _ => { ruleType := unattributed, code := unattributed }

/-- Sorts what a decision failed with, by its class first and then by where it came from. -/
def classifyFailure (cause : Thrown) (failures : FailureRecord) : ClassifiedFailure :=
  let source := failures.sourceOf cause
  match cause with
  | .collectorTimeout _ _ => .collectorTimeout (collectorName source)
  | .ruleTimeout _ _ => .ruleTimeout (ruleName source)
  | .attributeConflict _ _ => .attributeConflict
  | _ =>
    match source with
    | some (.collector _ collector) => .collectorThrew collector
    | some (.rule ruleType code) => .ruleThrew (ruleName (some (.rule ruleType code)))
    | _ => .internal

/-- The error of a failure line: one of the three deny errors rebuilt from safe parts, or what was
thrown. -/
inductive LoggableError where
  | ruleTimeout (detail : RuleTimeoutDetail)
  | collectorTimeout (detail : CollectorTimeoutDetail)
  | attributeConflict (key : Str)
  | original (cause : Thrown)
deriving DecidableEq

/-- The error to log for a failure. -/
def loggableError (cause : Thrown) (failure : ClassifiedFailure) : LoggableError :=
  match cause with
  | .ruleTimeout _ detail =>
    let rule := failure.rule?.getD { ruleType := unattributed, code := unattributed }
    .ruleTimeout { ruleType := rule.ruleType, code := rule.code, timeoutMs := detail.timeoutMs,
                   limit := detail.limit, started := detail.started }
  | .collectorTimeout _ (.deadline pipeline timeoutMs) =>
    .collectorTimeout (.deadline pipeline timeoutMs)
  | .collectorTimeout _ (.collector pipeline timeoutMs _) =>
    .collectorTimeout (.collector pipeline timeoutMs (failure.collector?.getD unattributed))
  | .attributeConflict _ key => .attributeConflict (identifier key)
  | cause => .original cause

/-- The deny a failure category is answered with: its code and its message. -/
structure Denial where
  code : Str
  message : Str
deriving DecidableEq

def collectorTimeoutMessage : Str := js "Authorization could not be decided in time"

/-- Deliberately the collector timeout's wording. -/
def ruleTimeoutMessage : Str := collectorTimeoutMessage

def attributeConflictMessage : Str := js "Authorization inputs conflicted"

/-- `DENIED_FAILURES`: the categories a decision is denied on rather than failed with. -/
def deniedFailures : FailureCategory → Option Denial
  | .collectorTimeout =>
    some { code := js "collector_timeout", message := collectorTimeoutMessage }
  | .ruleTimeout => some { code := js "rule_timeout", message := ruleTimeoutMessage }
  | .attributeConflict =>
    some { code := js "attribute_conflict", message := attributeConflictMessage }
  | _ => none

end PolicyVerifier.Server
