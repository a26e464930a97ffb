import PolicyVerifier.Js.Value

/-!
# What can be thrown

The error classes core defines and a host tells apart by class, and everything else a collector, a
rule or a caller may throw. A thrown object is told apart from another by its reference, so each
error the code itself makes names the place that made it.
-/

namespace PolicyVerifier.Core

open Js

/-- Which fan-out a bound was tripped in. -/
inductive CollectorPipeline where
  | attributes
  | rules
deriving DecidableEq

/-- The word the code writes for a pipeline. -/
def CollectorPipeline.name : CollectorPipeline → Str
  | attributes => js "attribute"
  | rules => js "rule"

/-- What tripped: one collector's own budget, or the whole fan-out's. -/
inductive CollectorTimeoutDetail where
  | collector (pipeline : CollectorPipeline) (timeoutMs : Nat) (collector : Str)
  | deadline (pipeline : CollectorPipeline) (timeoutMs : Nat)
deriving DecidableEq

/-- Which bound of the rule phase tripped. -/
inductive RuleTimeoutLimit where
  | rule
  | deadline
deriving DecidableEq

/-- What an asynchronous rule that did not answer in time is reported as. -/
structure RuleTimeoutDetail where
  ruleType : Str
  code : Str
  timeoutMs : Nat
  limit : RuleTimeoutLimit := .rule
  started : Bool := true
deriving DecidableEq

/-- The object an error is: made by a timer of this decision, by the merge, or by anyone else. -/
inductive ErrorRef where
  | collectorTimer (pipeline : CollectorPipeline) (index : Nat)
  | deadlineTimer (pipeline : CollectorPipeline)
  | ruleTimer (call : Nat)
  | merge
  | foreign (n : Nat)
deriving DecidableEq

/-- A thrown value. The first three are the classes a decision is denied on; a `RangeError` carries
the field and the number its message names. -/
inductive Thrown where
  | collectorTimeout (ref : ErrorRef) (detail : CollectorTimeoutDetail)
  | ruleTimeout (ref : ErrorRef) (detail : RuleTimeoutDetail)
  | attributeConflict (ref : ErrorRef) (key : Str)
  | typeError (message : Str)
  | notPositive (field : Str) (got : Number)
  | overTimer (field : Str) (got : Number)
  | other (value : Value)
deriving DecidableEq

/-- The key a thrown value has in a `Map`: `-0` is stored as `0`. -/
def Thrown.key : Thrown → Thrown
  | other v => other v.mapKey
  | e => e

end PolicyVerifier.Core
