import PolicyVerifier.Core.Errors
import PolicyVerifier.Lib.OrderedMap

/-!
# Which collector, or which rule, a failure came from
-/

namespace PolicyVerifier.Core

open Js

/-- Where a failure came from. -/
inductive FailureSource where
  | collector (pipeline : CollectorPipeline) (collector : Str)
  | deadline (pipeline : CollectorPipeline)
  | rule (ruleType : Str) (code : Str)
deriving DecidableEq

/-- The failures of one decision and where each came from, keyed by the value that was thrown. -/
structure FailureRecord where
  sources : OrderedMap Thrown FailureSource := ∅

namespace FailureRecord

/-- Records that `error` came from `source`, unless something already claimed it. -/
def record (r : FailureRecord) (error : Thrown) (source : FailureSource) : FailureRecord :=
  if r.sources.has error.key then r else ⟨r.sources.set error.key source⟩

/-- Where `error` came from, if anything recorded it. -/
def sourceOf (r : FailureRecord) (error : Thrown) : Option FailureSource :=
  r.sources.get? error.key

end FailureRecord

/-- The longest class name a collector's description carries. -/
def maxCollectorClassNameLength : Nat := 64

/-- A letter of a JavaScript identifier as a class declaration spells it. -/
def isClassNameStart (u : UInt16) : Bool :=
  (65 ≤ u && u ≤ 90) || (97 ≤ u && u ≤ 122) || u == 95 || u == 36

/-- `CLASS_NAME`: an identifier. -/
def isClassName : Str → Bool
  | [] => false
  | u :: us => isClassNameStart u && us.all fun v => isClassNameStart v || (48 ≤ v && v ≤ 57)

/-- Names a collector by its position in the pipeline's list, and by its class when that is an
identifier. `className` is `collector.constructor?.name`. -/
def describeCollector (className : Value) (index : Nat) (pipeline : CollectorPipeline) : Str :=
  let position := pipeline.name ++ js ".collectors[" ++ decimal index ++ js "]"
  match className with
  | .str name =>
    if name ≠ js "Object" ∧ name.length ≤ maxCollectorClassNameLength ∧ isClassName name then
      position ++ js " (" ++ name ++ js ")"
    else position
  | _ => position

end PolicyVerifier.Core
