import PolicyVerifier.Cedar.AgentReadBack
import PolicyVerifier.Cedar.PolicyRule
import PolicyVerifier.Cedar.PolicySource

/-!
# The out-of-process engine, and the rule over it

The set is pushed to an agent under ids that carry the load's mark, and every answer of the agent is
read against them. What an exchange with the agent comes to is the agent's: a rejection, or the body
it answered as `JSON.parse` reads it (`undefined` where it does not).
-/

namespace PolicyVerifier.Cedar

open Js PolicyVerifier.Core

/-- A `CedarEngineError`. -/
def cedarEngineError {α : Type} (message : Str) : Except Thrown α :=
  .error (.other (.obj 0 [(js "name", .str (js "CedarEngineError")), (js "message", .str message)]))

/-! ## The set as it is pushed -/

/-- A load's mark as it follows an id: `@` and the revision's first 16 hexadecimal digits. -/
def loadMark (revision : Str) : Str :=
  let digest := match indexOf (js ":") revision with
    | some at_ => revision.drop (at_ + 1)
    | none => revision
  js "@" ++ digest.take 16

/-- The id the agent holds a policy under. -/
def agentPolicyId (id revision : Str) : Str := id ++ loadMark revision

/-- A set the engine has loaded: the agent ids of its policies with their file ids, and the mark. -/
structure HttpPolicySet where
  endpoint : Str
  ownIds : OrderedMap Str Str
  ownMark : Str

/-- Whether a file holds text besides white space. -/
def nonBlank (file : PolicyFile) : Bool := file.text.any fun c => !isWhiteSpace c

/-- The policies that are pushed, each under its file id: every file that is not blank is one. -/
def httpPolicies (files : List PolicyFile) : Except Str (List NamedPolicy) :=
  namePolicies (files.filter nonBlank) fun file => [file.text]

/-- `load`, up to what the agent makes of the set: `push` is the push and the first read of it. -/
def loadHttp {sha256 : Str → Digest} (endpoint : Str) (push : List (Str × Str) → Except Str Unit)
    (source : PolicySource sha256) : Except Str HttpPolicySet := do
  let named ← httpPolicies source.files
  push (named.map fun policy => (agentPolicyId policy.id source.revision, policy.text))
  pure
    { endpoint
      ownIds := .ofList (named.map fun policy => (agentPolicyId policy.id source.revision, policy.id))
      ownMark := loadMark source.revision }

/-! ## The call -/

/-- One part of an entity type: an identifier. -/
def isIdentifier : Str → Bool
  | [] => false
  | c :: s => isLetter c && s.all fun d => isLetter d || (0x30 ≤ d && d ≤ 0x39)
where
  isLetter (c : UInt16) : Bool := (0x41 ≤ c && c ≤ 0x5A) || c == 0x5F || (0x61 ≤ c && c ≤ 0x7A)

/-- The parts of a text between its `::`, from left to right; `part` is what was read of the first. -/
def splitPath (part : Str) : Str → List Str
  | [] => [part]
  | [c] => [part ++ [c]]
  | c :: d :: s =>
    if c = 0x3A ∧ d = 0x3A then part :: splitPath [] s else splitPath (part ++ [c]) (d :: s)

/-- `CEDAR_TYPE_PATH.test(type)`. -/
def isTypePath (type : Str) : Bool := (splitPath [] type).all isIdentifier

/-- A Cedar string literal: every character it escapes is one code unit. -/
def cedarStringLiteral (value : Str) : Str :=
  js "\"" ++ (value.flatMap fun c =>
    if c = 0x5C then js "\\\\"
    else if c = 0x22 then js "\\\""
    else if c = 0x0A then js "\\n"
    else if c = 0x0D then js "\\r"
    else if c = 0x09 then js "\\t"
    else if c = 0 then js "\\0"
    else if c < 0x20 ∨ c = 0x7F then
      js "\\u\x7b" ++ (Nat.toDigits 16 c.toNat).flatMap units ++ js "\x7d"
    else [c]) ++ js "\""

/-- An entity reference in Cedar's own syntax. -/
def entityUidLiteral (uid : CedarEntityUid) : Except Thrown Str :=
  if isTypePath uid.type then .ok (uid.type ++ js "::" ++ cedarStringLiteral uid.id)
  else cedarEngineError (js "entity type " ++ Json.quote uid.type ++
    js " is not a Cedar entity type path (Ident, or Ident::Ident…)")

/-- What one authorization call sends, entities inline. -/
structure AgentAuthorizationCall where
  principal : Str
  action : Str
  resource : Str
  context : CedarContext
  entities : List CedarEntity

/-- The call a request is sent as. -/
def authorizationCall (request : CedarRequest) : Except Thrown AgentAuthorizationCall := do
  let principal ← entityUidLiteral request.principal
  let action ← entityUidLiteral request.action
  let resource ← entityUidLiteral request.resource
  pure { principal, action, resource, context := request.context, entities := request.entities }

/-! ## The answer, as the agent sent it -/

/-- Marks an item that names no id: a control character. -/
def unreadablePolicyId : Str := [0]

/-- The id an item of a list carries: a string is one, and an object may hold one. -/
def policyIdOf : Value → Option Str
  | .str s => some s
  | item => (item.field (js "policyId")).str?

/-- Why an answer is taken for another set's, and the other load's mark. -/
structure ForeignAnswer where
  why : Str
  mark : Option Str := none
deriving DecidableEq

/-- What the engine hands the rule. -/
@[ext] structure CedarDecision where
  decision : Str
  reason : List Str
  errors : List Str
  foreign : Option ForeignAnswer := none
deriving DecidableEq

/-- The decision as the object it is. -/
def CedarDecision.value (d : CedarDecision) : Value :=
  .obj 0
    ([(js "decision", .str d.decision), (js "reason", .strings d.reason),
      (js "errors", .strings d.errors)] ++
      (d.foreign.map fun f =>
        (js "foreign", Value.obj 0
          ((js "why", .str f.why) :: (f.mark.map fun m => (js "mark", Value.str m)).toList))).toList)

/-- A decision as the agent answered it, and its errors as it sent them. -/
structure AgentAnswer where
  decision : CedarDecision
  errorItems : List Value

section Read

variable (numeral : ℚ → List Json.NumeralChar)

/-- `diagnostics.reason` as policy ids; none where it is not a list. -/
def policyIds (value : Value) : Option (List Str) :=
  value.items?.map fun items => items.map fun item =>
    (policyIdOf item).getD (unreadablePolicyId ++ Json.text numeral item)

/-- A diagnostics list as text; none where it is not a list. -/
def renderedList (value : Value) : Option (List Str) :=
  value.items?.map fun items => items.map fun item => item.str?.getD (Json.text numeral item)

/-- Reads the agent's answer; anything else is the engine not answering. -/
def readDecision (body : Value) (endpoint : Str) : Except Thrown AgentAnswer :=
  let at_ := js "cedar engine at " ++ endpoint
  if !body.isObject then cedarEngineError (at_ ++ js " answered something that is not a decision")
  else
    let decision := body.field (js "decision")
    let diagnostics := body.field (js "diagnostics")
    let normalized := decision.str?.map toLowerCase
    match normalized.filter fun d => decide (d = js "allow" ∨ d = js "deny") with
    | none =>
      cedarEngineError (at_ ++ js " answered an unknown decision " ++ Json.text numeral decision)
    | some normalized =>
      let errorItems := diagnostics.field (js "errors")
      match diagnostics.isObject, policyIds numeral (diagnostics.field (js "reason")),
          renderedList numeral errorItems with
      | true, some reason, some errors =>
        .ok
          { decision := { decision := normalized, reason, errors }
            errorItems := errorItems.items?.getD [] }
      | _, _, _ =>
        cedarEngineError (at_ ++ js " answered a decision without well-formed diagnostics")

end Read

/-! ## Which policy an error names -/

/-- What stands for a backslash and one letter. -/
def debugEscape (c : UInt16) : Option UInt16 :=
  if c = 0x30 then some 0
  else if c = 0x74 then some 0x09
  else if c = 0x6E then some 0x0A
  else if c = 0x72 then some 0x0D
  else if c = 0x5C ∨ c = 0x22 ∨ c = 0x27 then some c
  else none

/-- What follows `\u{` as hexadecimal digits up to the brace: one to six of them. -/
def unicodeDebugEscape (s : Str) : Option Str :=
  let digits := s.takeWhile isHexDigit
  if 1 ≤ digits.length ∧ digits.length ≤ 6 ∧ (s.drop digits.length).head? = some 0x7D then some digits
  else none

/-- Undoes Rust's `escape_debug`; any other backslash is left as it is. `skip` counts the code units
of an escape that is already read. -/
def unescapeDebugFrom (skip : Nat) : Str → Str
  | [] => []
  | c :: s =>
    if 0 < skip then unescapeDebugFrom (skip - 1) s
    else if c = 0x5C then
      match s with
      | 0x75 :: 0x7B :: rest =>
        match unicodeDebugEscape rest with
        | some digits =>
          let codePoint := parseHex digits
          let written := if codePoint ≤ 0x10FFFF then fromCodePoint codePoint
            else js "\\u\x7b" ++ digits ++ js "\x7d"
          written ++ unescapeDebugFrom (digits.length + 3) s
        | none => c :: unescapeDebugFrom 0 s
      | d :: _ =>
        match debugEscape d with
        | some e => e :: unescapeDebugFrom 1 s
        | none => c :: unescapeDebugFrom 0 s
      | [] => [c]
    else c :: unescapeDebugFrom 0 s

/-- `unescapeDebug`. -/
def unescapeDebug (text : Str) : Str := unescapeDebugFrom 0 text

/-- The start of the one error that names no policy. -/
def attributeEvaluationError : Str := js "error occurred while evaluating entity attributes: "

/-- What follows the start of an evaluation error, up to the policy id. -/
def afterEvaluationError (item : Str) : Option Str :=
  let old := js "error occurred while evaluating policy \x60"
  let new := js "error while evaluating policy \x60"
  if startsWith old item then some (item.drop old.length)
  else if startsWith new item then some (item.drop new.length)
  else none

/-- The policy an evaluation error names; none for the one error that names none. -/
def erroringPolicy (item : Value) (ownMark : Str) : Option Str :=
  match item with
  | .str item =>
    if startsWith attributeEvaluationError item then none
    else
      match afterEvaluationError item with
      | none => some unreadablePolicyId
      | some rest =>
        match indexOf (ownMark ++ js "\x60: ") rest with
        | some own => some (unescapeDebug (rest.take (own + ownMark.length)))
        | none =>
          match indexOf (js "\x60: ") rest with
          | some first => some (unescapeDebug (rest.take first))
          | none => some unreadablePolicyId
  | item => some ((item.field (js "policyId")).str?.getD unreadablePolicyId)

/-! ## The answer, read against what was pushed -/

/-- Why an item is not this load's: one of this load's names under another mark gives that mark. -/
def foreignAnswer (item : Str) (ownIds : OrderedMap Str Str) : ForeignAnswer :=
  if startsWith unreadablePolicyId item then { why := js "unreadable policy" }
  else
    let name := item.take (item.length - 17)
    let mark := item.drop (item.length - 16)
    if 17 ≤ item.length ∧ item[item.length - 17]? = some 0x40 ∧ isMark mark = true ∧
        name.all (fun c => !isLineTerminator c) = true ∧ name ∈ ownIds.entries.map Prod.snd then
      { why := js "unknown policy", mark := some mark }
    else { why := js "unknown policy" }

/-- The file ids of the items, each once; or the first item that is not this load's. -/
def ownReason (ownIds : OrderedMap Str Str) (reason : List Str) : List Str → Except Str (List Str)
  | [] => .ok reason
  | item :: items =>
    match ownIds.get? item with
    | none => .error item
    | some id => ownReason ownIds (if id ∈ reason then reason else reason ++ [id]) items

/-- The first policy an error names that is not this load's. -/
def foreignError (ownIds : OrderedMap Str Str) (ownMark : Str) (errorItems : List Value) :
    Option Str :=
  (errorItems.filterMap fun item => erroringPolicy item ownMark).find? fun policy =>
    !ownIds.has policy

/-- An answer, read against what this load pushed. -/
def ownDecision (answer : AgentAnswer) (ownIds : OrderedMap Str Str) (ownMark : Str) :
    CedarDecision :=
  match ownReason ownIds [] answer.decision.reason with
  | .error item =>
    { answer.decision with reason := [], foreign := some (foreignAnswer item ownIds) }
  | .ok reason =>
    match foreignError ownIds ownMark answer.errorItems with
    | some policy =>
      { answer.decision with reason := [], foreign := some (foreignAnswer policy ownIds) }
    | none => { answer.decision with reason }

/-- The label of a refusal. -/
def ReadBackRefusal.label : ReadBackRefusal → Str
  | alteredPolicySet => js "altered policy set"
  | unverifiablePolicySet => js "unverifiable policy set"

/-- Every answer while the read-back refuses. -/
def refused (why : ReadBackRefusal) : CedarDecision :=
  { decision := js "deny", reason := [], errors := [], foreign := some { why := why.label } }

/-- `isAuthorized`: `atCall` is the read-back once it was polled, and `atAnswer` once the answer was
read. -/
def isAuthorized (numeral : ℚ → List Json.NumeralChar) (set : HttpPolicySet)
    (atCall atAnswer : AgentReadBack) (agent : AgentAuthorizationCall → Except Thrown Value)
    (request : CedarRequest) : Except Thrown CedarDecision :=
  match atCall.refusal with
  | some why => .ok (refused why)
  | none => do
    let call ← authorizationCall request
    let body ← agent call
    let answer ← readDecision numeral body set.endpoint
    match atAnswer.answered.refusedSince atCall.generation with
    | some late => pure (refused late)
    | none => pure (ownDecision answer set.ownIds set.ownMark)

/-- The same, as the object the rule is handed. -/
def answered (numeral : ℚ → List Json.NumeralChar) (set : HttpPolicySet)
    (atCall atAnswer : AgentReadBack) (agent : AgentAuthorizationCall → Except Thrown Value)
    (request : CedarRequest) : Except Thrown Value :=
  (isAuthorized numeral set atCall atAnswer agent request).map CedarDecision.value

/-! ## The rule over it -/

/-- An engine a collector may select, and what it loads a set as. -/
structure CedarEngine (sha256 : Str → Digest) (α : Type) where
  name : Str
  async : Bool
  confirmsRevision : Bool := false
  load : PolicySource sha256 → Except Str α
  /-- The `async` of a set it loads. -/
  setAsync : α → Bool

/-- The http engine, at an endpoint. -/
def cedarHttpEngine {sha256 : Str → Digest} (endpoint : Str)
    (push : List (Str × Str) → Except Str Unit) : CedarEngine sha256 HttpPolicySet :=
  { name := js "http", async := true, load := loadHttp endpoint push, setAsync := fun _ => true }

/-- The settings of a collector, each already of its own type. -/
structure CollectorSettings where
  ruleType : Str := js "cedar"
  onNoDeterminingPolicy : NoDeterminingPolicy := .deny
  logEvaluationErrors : Bool := true
  requireConfirmedRevision : Bool := false
  mapping : ResolvedMapping

/-- `CedarPolicyRuleCollector.create`, from the settings and the source it read: the rule it fixes,
and the set it is bound to. -/
def create {sha256 : Str → Digest} {α : Type} (engine : CedarEngine sha256 α)
    (settings : CollectorSettings) (source : PolicySource sha256) : Except Str (BoundRule × α) := do
  let quoted := js "\"" ++ engine.name ++ js "\""
  if engine.async ∧ settings.onNoDeterminingPolicy = .abstain then
    configError (js "onNoDeterminingPolicy = \"abstain\" cannot be used with the asynchronous " ++
      quoted ++ js " engine — an engine that lost the policy set (a restarted agent comes back empty) answers \"no determining policy\" to every request, which abstain would pass. Use \"deny\", or evaluate in-process: import \"@o3co/auth.policy-verifier.cedar-wasm\" and set engine = \"wasm\"")
  else if settings.requireConfirmedRevision ∧ !engine.confirmsRevision then
    configError (js "requireConfirmedRevision = true cannot be used with the " ++ quoted ++
      js " engine — it does not report which policy revision an answer was evaluated against, so no decision could name one. Evaluate in-process: import \"@o3co/auth.policy-verifier.cedar-wasm\" and set engine = \"wasm\"; or leave requireConfirmedRevision off, and the revision this collector loaded is recorded as loadedRevision")
  else
    match engine.load source with
    | .error message => configError message
    | .ok set =>
      if engine.setAsync set ≠ engine.async then
        configError (js "the " ++ quoted ++ js " engine declares async = " ++ written engine.async ++
          js " but loaded a policy set with async = " ++ written (engine.setAsync set))
      else
        pure
          ({ ruleType := settings.ruleType
             onNoDeterminingPolicy := settings.onNoDeterminingPolicy
             loadedRevision := source.revision
             requireConfirmedRevision := settings.requireConfirmedRevision
             mapping := settings.mapping
             logEvaluationErrors := settings.logEvaluationErrors }, set)
where
  /-- A truth value in a template literal. -/
  written (b : Bool) : Str := if b then js "true" else js "false"

end PolicyVerifier.Cedar
