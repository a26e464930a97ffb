import PolicyVerifier.Core.Types
import PolicyVerifier.Js.Strings

/-!
# One invocation of a rule

The reporter a rule is handed, and the reading of what came back. A report is read once; what does
not read is refused, and the refusal is kept as well as thrown.
-/

namespace PolicyVerifier.Core

open Js

/-! ## The bounds a report is held to -/

def policyRevisionMaxLength : Nat := 256

def determiningPoliciesMax : Nat := 32

def policyIdMaxLength : Nat := 128

/-- The code points a determining policy id may not hold, as inclusive ranges. -/
def policyIdForbiddenRanges : List (Nat × Nat) :=
  [(0x0000, 0x001f), (0x007f, 0x009f), (0x00ad, 0x00ad), (0x061c, 0x061c), (0x180e, 0x180e),
    (0x200b, 0x200b), (0x200e, 0x200f), (0x2028, 0x202e), (0x2060, 0x2069), (0xfeff, 0xfeff),
    (0xe0000, 0xe007f)]

/-- `[a-z0-9]`. -/
def isSchemeUnit (u : UInt16) : Bool := (97 ≤ u && u ≤ 122) || (48 ≤ u && u ≤ 57)

/-- `[+._-]`. -/
def isSchemeSeparator (u : UInt16) : Bool := u == 43 || u == 46 || u == 95 || u == 45

/-- `[A-Za-z0-9=_-]`. -/
def isEncodedUnit (u : UInt16) : Bool :=
  (65 ≤ u && u ≤ 90) || isSchemeUnit u || u == 61 || u == 95 || u == 45

/-- `POLICY_REVISION_PATTERN` from inside the scheme. The flag says whether a unit of the current
segment was read: a separator and the colon may only follow one. -/
def matchesRevision : Bool → Str → Bool
  | _, [] => false
  | inSegment, u :: us =>
    if isSchemeUnit u then matchesRevision true us
    else if u = 58 then inSegment && !us.isEmpty && us.all isEncodedUnit
    else inSegment && isSchemeSeparator u && matchesRevision false us

/-- The code points of a string, `none` when it holds a lone surrogate. -/
def codePoints : Str → Option (List Nat)
  | [] => some []
  | u :: us =>
    if 0xDC00 ≤ u ∧ u ≤ 0xDFFF then none
    else if 0xD800 ≤ u ∧ u ≤ 0xDBFF then
      match us with
      | [] => none
      | v :: vs =>
        if 0xDC00 ≤ v ∧ v ≤ 0xDFFF then
          (codePoints vs).map
            ((0x10000 + (u.toNat - 0xD800) * 0x400 + (v.toNat - 0xDC00)) :: ·)
        else none
    else (codePoints us).map (u.toNat :: ·)

/-- Whether a string can be carried as a determining policy id. -/
def isReportablePolicyId (s : Str) : Bool :=
  decide (0 < s.length ∧ s.length ≤ policyIdMaxLength) &&
    match codePoints s with
    | none => false
    | some cs => cs.all fun c => policyIdForbiddenRanges.all fun r => decide (c < r.1 ∨ r.2 < c)

/-- `isReportablePolicyId` on a value: the id when it is one. -/
def reportableId? (v : Value) : Option Str := v.str?.filter isReportablePolicyId

/-- The elements of a list, each once, as a `Set` keeps them. -/
def distinctNames (names : List Value) : List Value := (names.map Value.mapKey).eraseDups

/-- Makes the policies an evaluator named fit: each reportable name once, in order, up to the
maximum, and every other distinct name counted. -/
def boundDeterminingPolicies (names : List Value) : DeterminingPolicies :=
  let distinct := distinctNames names
  let listed := (distinct.filterMap reportableId?).take determiningPoliciesMax
  let omitted := distinct.length - listed.length
  { determiningPolicies := some listed
    determiningPoliciesOmitted := if 0 < omitted then some omitted else none }

/-! ## Reading a report -/

/-- What reading a report off its accessors came to: nothing that has fields, the own keys and the
five fields, or an accessor that threw. -/
inductive Reading where
  | notObject
  | fields (keys : List Str) (status revision loadedRevision determiningPolicies
      determiningPoliciesOmitted : Value)
  | throws (e : Thrown)

/-- The keys a `not_invoked` evaluation may carry. -/
def notInvokedKeys : List Str := [js "status"]

def failedKeys : List Str := [js "status", js "revision", js "loadedRevision"]

def completedKeys : List Str :=
  failedKeys ++ [js "determiningPolicies", js "determiningPoliciesOmitted"]

/-- The count of unknown keys is named, not the keys. -/
def refuseUnknownKeys (keys allowed : List Str) (what : Str) : Except Thrown Unit :=
  let unknown := keys.filter fun k => k ∉ allowed
  if unknown = [] then .ok ()
  else .error (.typeError (what ++ js " carries " ++ decimal unknown.length ++
    js " key(s) the contract does not name (allowed: " ++ join (js ", ") allowed ++ js ")"))

def readRevision (value : Value) (key : Str) : Except Thrown Str :=
  match value with
  | .str s =>
    if s.length ≤ policyRevisionMaxLength ∧ matchesRevision false s then .ok s
    else .error (refusedRevision key)
  | _ => .error (refusedRevision key)
where
  /-- What a reference that does not read is refused with. -/
  refusedRevision (key : Str) : Thrown :=
    .typeError (js "a rule's evaluation." ++ key ++
      js " must be a policy revision reference — scheme:encoded, at most " ++
      decimal policyRevisionMaxLength ++ js " characters")

/-- The revision part of an evaluated report: a vouched revision, or `null` and what was loaded. -/
def readEvaluatedRevision (status : Str) (revision loadedRevision : Value) :
    Except Thrown EvaluatedRevision :=
  match revision with
  | .null =>
    if loadedRevision = .undefined then .ok (.unknown none)
    else (readRevision loadedRevision (js "loadedRevision")).map fun s => .unknown (some s)
  | .undefined => .error (.typeError (js "a \"" ++ status ++
      js "\" evaluation must name its revision, or null when it cannot be established"))
  | _ =>
    if loadedRevision ≠ .undefined then
      .error (.typeError (js "a rule's evaluation carries loadedRevision only when revision is null"))
    else (readRevision revision (js "revision")).map .revision

/-- The ids of a list of determining policies, read in order; `seen` holds the ones read so far. -/
def readIds : List Str → List Value → Except Thrown (List Str)
  | seen, [] => .ok seen
  | seen, v :: vs =>
    match reportableId? v with
    | none => .error (.typeError (js "a rule's evaluation.determiningPolicies holds an id that is not 1 to " ++
        decimal policyIdMaxLength ++
        js " UTF-16 units of well-formed text outside POLICY_ID_FORBIDDEN_RANGES — build the report with report.boundDeterminingPolicies, which counts such an id in determiningPoliciesOmitted"))
    | some id =>
      if id ∈ seen then
        .error (.typeError
          (js "a rule's evaluation.determiningPolicies names a policy twice — it is a set"))
      else readIds (seen ++ [id]) vs

/-- The count of policies that were not listed: a positive whole number. -/
def readOmitted (omitted : Value) : Except Thrown (Option Nat) :=
  match omitted with
  | .undefined => .ok none
  | .num n =>
    match n.toInt? with
    | some z => if n.isSafeInteger ∧ 1 ≤ z then .ok (some z.toNat) else .error refusedOmitted
    | none => .error refusedOmitted
  | _ => .error refusedOmitted
where
  /-- What a count that does not read is refused with. -/
  refusedOmitted : Thrown :=
    .typeError (js "a rule's evaluation.determiningPoliciesOmitted must be a positive whole number — absent when nothing was omitted")

/-- The determining policies of a completed evaluation, or nothing when the rule named none. -/
def readDeterminingPolicies (list omitted : Value) : Except Thrown DeterminingPolicies :=
  match list with
  | .undefined =>
    if omitted ≠ .undefined then
      .error (.typeError
        (js "a rule's evaluation carries determiningPoliciesOmitted only beside determiningPolicies"))
    else .ok {}
  | .arr _ items =>
    if determiningPoliciesMax < items.length then
      .error (.typeError (js "a rule's evaluation.determiningPolicies lists at most " ++
        decimal determiningPoliciesMax ++
        js " ids — count the rest in determiningPoliciesOmitted"))
    else
      match readIds [] items with
      | .error e => .error e
      | .ok ids => (readOmitted omitted).map fun o =>
          { determiningPolicies := some ids, determiningPoliciesOmitted := o }
  | _ => .error (.typeError (js "a rule's evaluation.determiningPolicies must be a list of policy ids"))

/-- A report as the checks find it: three statuses, each with the keys and the values it may carry. -/
def readEvaluation : Reading → Except Thrown RuleEvaluation
  | .notObject => .error (.typeError (js "a rule's evaluation must be an object"))
  | .throws e => .error e
  | .fields keys status revision loadedRevision determiningPolicies determiningPoliciesOmitted =>
    if status = .str (js "not_invoked") then do
      refuseUnknownKeys keys notInvokedKeys (js "a \"not_invoked\" evaluation")
      if revision ≠ .undefined ∨ loadedRevision ≠ .undefined ∨ determiningPolicies ≠ .undefined ∨
          determiningPoliciesOmitted ≠ .undefined then
        .error (.typeError (js "a \"not_invoked\" evaluation may not carry a revision, a loadedRevision or determining policies — not even inherited or through a getter; nothing was evaluated"))
      else .ok .notInvoked
    else if status = .str (js "completed") then do
      refuseUnknownKeys keys completedKeys (js "a rule's evaluation")
      let determining ← readDeterminingPolicies determiningPolicies determiningPoliciesOmitted
      let evaluated ← readEvaluatedRevision (js "completed") revision loadedRevision
      .ok (.completed evaluated determining)
    else if status = .str (js "failed") then do
      refuseUnknownKeys keys failedKeys (js "a \"failed\" evaluation")
      if determiningPolicies ≠ .undefined ∨ determiningPoliciesOmitted ≠ .undefined then
        .error (.typeError (js "a \"failed\" evaluation may not name determining policies — not even inherited or through a getter; its answer is the rule failing closed, not a decision of the policies, and only a \"completed\" one carries them"))
      else
        let evaluated ← readEvaluatedRevision (js "failed") revision loadedRevision
        .ok (.failed evaluated)
    else .error (.typeError
      (js "a rule's evaluation.status must be one of completed, failed, not_invoked"))

/-! ## The invocation -/

/-- One call of a reporter: the calls its evaluation's accessors made while it was read, what the
reading came to, and whether the caller caught what the call threw. -/
inductive ReportCall where
  | mk (nested : List ReportCall) (reading : Reading) (caught : Bool)

/-- How one rule came out: whether it passed, and the evaluation to carry. -/
structure RuleResult where
  passed : Bool
  evaluation : Option RuleEvaluation := none
deriving DecidableEq

/-- The evaluator's side of one invocation. -/
structure RuleInvocation where
  reported : Option RuleEvaluation := none
  refusal : Option Thrown := none
  closed : Bool := false
deriving DecidableEq

namespace RuleInvocation

/-- The invocation a rule call starts with. -/
def beginRuleInvocation : RuleInvocation := {}

/-- Keeps the first refusal, and throws it. -/
def refuse (s : RuleInvocation) (error : Thrown) : RuleInvocation × Except Thrown Unit :=
  let kept := s.refusal.getD error
  ({ s with refusal := some kept }, .error kept)

/-- What a second report of one invocation is refused with. -/
def reportedTwice : Thrown :=
  .typeError (js "a rule reported its evaluation more than once for one invocation")

mutual

/-- One call of the reporter. The calls made while the evaluation is read come first; one of them
that threw, uncaught, is what the reading threw. -/
def report (s : RuleInvocation) : ReportCall → RuleInvocation × Except Thrown Unit
  | .mk nested reading _ =>
    if s.closed then (s, .ok ())
    else if s.reported.isSome ∨ s.refusal.isSome then s.refuse reportedTwice
    else
      match reportAll s nested with
      | (s', .error e) => s'.refuse e
      | (s', .ok ()) =>
        match readEvaluation reading with
        | .error e => s'.refuse e
        | .ok evaluation => ({ s' with reported := some evaluation }, .ok ())

/-- The calls of a list in turn, up to one that throws uncaught. -/
def reportAll (s : RuleInvocation) : List ReportCall → RuleInvocation × Except Thrown Unit
  | [] => (s, .ok ())
  | .mk nested reading caught :: calls =>
    match report s (.mk nested reading caught) with
    | (s', .ok ()) => reportAll s' calls
    | (s', .error e) => if caught then reportAll s' calls else (s', .error e)

end

/-- Reads the rule's answer together with what it reported. -/
def conclude (s : RuleInvocation) (answer : Value) : Except Thrown RuleResult :=
  match s.refusal with
  | some e => .error e
  | none =>
    match answer with
    | .bool passed =>
      match s.reported with
      | none => .ok { passed }
      | some evaluation =>
        if passed ∧ evaluation.status ≠ .completed then
          .error (.typeError (js "a rule passed while reporting its evaluation \"" ++
            evaluation.status.name ++
            js "\" — only a completed evaluation can stand behind a pass"))
        else .ok { passed, evaluation := some evaluation }
    | .null => .error (.typeError (js "a rule must answer a boolean, got null"))
    | v => .error (.typeError (js "a rule must answer a boolean, got " ++ v.typeOf))

/-- Ends the invocation: a report after it does nothing. -/
def close (s : RuleInvocation) : RuleInvocation := { s with closed := true }

/-- The reports of a rule one after the other, each made whatever the one before it came to. -/
def reports (s : RuleInvocation) (calls : List ReportCall) : RuleInvocation :=
  calls.foldl (fun s call => (s.report call).1) s

/-- What `conclude` leaves behind and what it answers: it closes the invocation before it reads. -/
def concluded (s : RuleInvocation) (answer : Value) : RuleInvocation × Except Thrown RuleResult :=
  (s.close, s.conclude answer)

end RuleInvocation

end PolicyVerifier.Core
