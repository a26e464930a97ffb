import Mathlib.Algebra.GroupWithZero.Nat
import PolicyVerifier.Js.Strings
import PolicyVerifier.Js.Text
import PolicyVerifier.Server.Decide

/-!
# Decision requests, as a body carries them

Every entry is validated before anything is authenticated or decided. The resource parser is the
deployment's own: it parses a string, refuses it, or faults.
-/

namespace PolicyVerifier.Server

open Js PolicyVerifier.Core

/-- The bounds one decision request is held to, each small enough to be written without an exponent. -/
structure RequestLimits where
  maxResourceLength : Nat
  maxActionLength : Nat
  maxContextEntries : Nat
  maxContextValueLength : Nat

/-- What `ResourceParser.parse` does with a string: a `ResourceParseError` is a refusal. -/
inductive ParseOutcome where
  | parsed (resource : Resource)
  | refused (raw detail : Str)
  | threw (cause : Thrown)

/-- `ValidatedDecisionRequest`. -/
structure ValidatedDecisionRequest where
  request : DecisionRequest
  context : Option (List (Str × Value))
  resource : Resource

/-- Outcome of a validation: the value, the reason it is unusable, or what the parser threw. -/
inductive Validated (α : Type) where
  | ok (value : α)
  | refused (error : Str)
  | threw (cause : Thrown)

/-- `DECISION_REQUEST_KEYS`. -/
def decisionRequestKeys : List Str := [js "resource", js "action", js "context"]

/-- `MAX_RENDERED_KEYS`. -/
def maxRenderedKeys : Nat := 3

/-- `MAX_RENDERED_KEY_LENGTH`. -/
def maxRenderedKeyLength : Nat := 32

/-- `describeUnknownKeys`. -/
def describeUnknownKeys (keys : List Str) : Str :=
  let shown := (keys.take maxRenderedKeys).map fun key =>
    Json.quote
      (if maxRenderedKeyLength < key.length then key.take (maxRenderedKeyLength - 1) ++ js "…" else key)
  if shown.length < keys.length then join (js ", ") shown ++ js ", …" else join (js ", ") shown

/-- `checkIdentifier`. -/
def checkIdentifier (value : Value) (field label : Str) (maxLength : Nat) : Except Str Str :=
  match value with
  | .str s =>
    if s = [] then .error (label ++ js "." ++ field ++ js " must be a non-empty string")
    else if maxLength < s.length then
      .error (label ++ js "." ++ field ++ js " must not be longer than " ++ decimal maxLength ++
        js " characters")
    else if s.any isWhiteSpace then
      .error (label ++ js "." ++ field ++ js " must not contain whitespace")
    else .ok s
  | _ => .error (label ++ js "." ++ field ++ js " must be a non-empty string")

/-! ## The context -/

/-- `Object.entries(node)`, without the indices of an array. -/
def ownEntries : Value → List (Option Str × Value)
  | .arr _ items => items.map fun item => (none, item)
  | .obj _ props => props.map fun prop => (some prop.1, prop.2)
  | _ => []

mutual

/-- The properties and array elements of a value, at every depth. -/
def entryCount : Value → Nat
  | .arr _ items => itemCount items
  | .obj _ props => propCount props
  | _ => 0

/-- The same, of the items of an array. -/
def itemCount : List Value → Nat
  | [] => 0
  | item :: items => entryCount item + 1 + itemCount items

/-- The same, of the properties of an object. -/
def propCount : List (Str × Value) → Nat
  | [] => 0
  | (_, value) :: props => entryCount value + 1 + propCount props

end

theorem itemCount_eq (items : List Value) :
    itemCount items = (items.map fun item => entryCount item + 1).sum := by
  induction items with
  | nil => rfl
  | cons item items ih => rw [itemCount, ih, List.map_cons, List.sum_cons]

theorem propCount_eq (props : List (Str × Value)) :
    propCount props = (props.map fun prop => entryCount prop.2 + 1).sum := by
  induction props with
  | nil => rfl
  | cons prop props ih => rw [propCount, ih, List.map_cons, List.sum_cons]

section Context

variable (label : Str) (limits : RequestLimits)

/-- The message of a context of too many entries. -/
def tooMany : Str :=
  label ++ js ".context must not carry more than " ++ decimal limits.maxContextEntries ++
    js " entries (every property and array element counts, at every depth)"

/-- The message of a string that is too long. -/
def tooLong : Str :=
  label ++ js ".context must not carry a string longer than " ++ decimal limits.maxContextValueLength ++
    js " characters (property names included)"

/-- The entries of one node: how many there are by now, or the bound that one of them breaks. -/
def checkEntries : List (Option Str × Value) → Nat → Except Str Nat
  | [], entries => .ok entries
  | (key, value) :: rest, entries =>
    if limits.maxContextEntries < entries + 1 then .error (tooMany label limits)
    else if key.any fun key => limits.maxContextValueLength < key.length then
      .error (tooLong label limits)
    else if value.str?.any fun s => limits.maxContextValueLength < s.length then
      .error (tooLong label limits)
    else checkEntries rest (entries + 1)

/-- The containers among the entries of a node, the last of them first. -/
def containers (node : Value) : List Value :=
  (((ownEntries node).map Prod.snd).filter Value.isObject).reverse

theorem entryCount_leaf {v : Value} (h : v.isObject = false) : entryCount v = 0 := by
  cases v with
  | arr ref items => exact absurd h (by simp [Value.isObject])
  | obj ref props => exact absurd h (by simp [Value.isObject])
  | _ => rfl

theorem sum_entryCount_succ (values : List Value) :
    (values.map fun v => entryCount v + 1).sum = values.length + (values.map entryCount).sum := by
  induction values with
  | nil => rfl
  | cons v values ih =>
    simp only [List.map_cons, List.sum_cons, List.length_cons, ih]
    omega

theorem sum_filter_isObject (values : List Value) :
    ((values.filter Value.isObject).map entryCount).sum = (values.map entryCount).sum := by
  induction values with
  | nil => rfl
  | cons v values ih =>
    rw [List.filter_cons, List.map_cons, List.sum_cons]
    by_cases hcontainer : v.isObject = true
    · rw [if_pos hcontainer, List.map_cons, List.sum_cons, ih]
    · rw [if_neg hcontainer, ih, entryCount_leaf (by simpa using hcontainer), Nat.zero_add]

/-- The entries of a value are its own, and those of the containers among them. -/
theorem entryCount_eq (node : Value) :
    entryCount node = (ownEntries node).length + ((containers node).map entryCount).sum := by
  have hvalues : entryCount node = (((ownEntries node).map Prod.snd).map fun v => entryCount v + 1).sum := by
    cases node with
    | arr ref items => simp [ownEntries, entryCount, itemCount_eq, Function.comp_def]
    | obj ref props => simp [ownEntries, entryCount, propCount_eq, Function.comp_def]
    | _ => rfl
  rw [hvalues, sum_entryCount_succ, containers, List.map_reverse, List.sum_reverse, sum_filter_isObject, List.length_map]

/-- What a node holds has fewer entries than the node has with itself. -/
theorem sum_entryCount_containers (node : Value) :
    ((containers node).map fun held => entryCount held + 1).sum ≤ entryCount node := by
  have hlength : (containers node).length ≤ (ownEntries node).length := by
    rw [containers, List.length_reverse]
    exact (List.length_filter_le _ _).trans_eq (List.length_map _)
  rw [sum_entryCount_succ, entryCount_eq node]
  omega

/-- The nodes still to be read, the next one first. -/
def checkPending : List Value → Nat → Option Str
  | [], _ => none
  | node :: pending, entries =>
    match checkEntries label limits (ownEntries node) entries with
    | .error message => some message
    | .ok entries => checkPending (containers node ++ pending) entries
termination_by pending => (pending.map fun node => entryCount node + 1).sum
decreasing_by
  have := sum_entryCount_containers node
  simp only [List.map_append, List.sum_append, List.map_cons, List.sum_cons]
  omega

/-- `checkContext`. -/
def checkContext (context : Value) : Option Str := checkPending label limits [context] 0

end Context

/-! ## One entry -/

/-- What is made of `context`: absent, or an object within its bounds. -/
def checkedContext (context : Value) (label : Str) (limits : RequestLimits) :
    Except Str (Option (List (Str × Value))) :=
  match context with
  | .undefined => .ok none
  | .obj ref props =>
    match checkContext label limits (.obj ref props) with
    | some badContext => .error badContext
    | none => .ok (some props)
  | _ => .error (label ++ js ".context must be an object")

section Requests

variable (resourceParser : Str → ParseOutcome) (limits : RequestLimits)

/-- The fields of an entry, before the resource is parsed. -/
def checkFields (raw : Value) (label : Str) :
    Except Str (DecisionRequest × Option (List (Str × Value))) := do
  let resource ← checkIdentifier (raw.field (js "resource")) (js "resource") label
    limits.maxResourceLength
  let action ← checkIdentifier (raw.field (js "action")) (js "action") label limits.maxActionLength
  let context ← checkedContext (raw.field (js "context")) label limits
  pure ({ resource, action }, context)

/-- `parseDecisionRequest`. -/
def parseDecisionRequest (raw : Value) (label : Str) : Validated ValidatedDecisionRequest :=
  match raw with
  | .obj _ props =>
    let unknownKeys := (props.map Prod.fst).filter fun key => key ∉ decisionRequestKeys
    if unknownKeys ≠ [] then
      .refused (label ++ js " has unknown properties: " ++ describeUnknownKeys unknownKeys ++
        js " (only resource, action and context are accepted)")
    else
      match checkFields limits raw label with
      | .error error => .refused error
      | .ok (request, context) =>
        match resourceParser request.resource with
        | .threw cause => .threw cause
        | .refused raw detail =>
          .refused (label ++ js ".resource is not a valid resource string \"" ++ raw ++ js "\": " ++
            detail)
        | .parsed resource => .ok { request, context, resource }
  | _ => .refused (label ++ js " must be an object")

/-- What a batch's entry is called in a message. -/
def batchEntryLabel (index : Nat) : Str := js "decisions[" ++ decimal index ++ js "]"

/-- The entries of a batch, in order, from an index on: the first unusable one ends it. -/
def parseEntries : Nat → List Value → Validated (List ValidatedDecisionRequest)
  | _, [] => .ok []
  | index, item :: items =>
    match parseDecisionRequest resourceParser limits item (batchEntryLabel index) with
    | .refused error => .refused error
    | .threw cause => .threw cause
    | .ok entry =>
      match parseEntries (index + 1) items with
      | .refused error => .refused error
      | .threw cause => .threw cause
      | .ok entries => .ok (entry :: entries)

/-- The body of `POST /verify/batch`: the envelope, the cap and every entry. -/
def parseBatch (maxBatchSize : Nat) (body : Value) : Validated (List ValidatedDecisionRequest) :=
  match body with
  | .obj _ props =>
    let unknownKeys := (props.map Prod.fst).filter fun key => key ≠ js "decisions"
    if unknownKeys ≠ [] then
      .refused (js "body has unknown properties: " ++ describeUnknownKeys unknownKeys ++
        js " (only decisions is accepted)")
    else
      match body.field (js "decisions") with
      | .arr _ raw =>
        if raw = [] then .refused (js "decisions must be a non-empty array")
        else if maxBatchSize < raw.length then
          .refused (js "decisions must contain at most " ++ decimal maxBatchSize ++ js " entries, got " ++
            decimal raw.length)
        else parseEntries resourceParser limits 0 raw
      | _ => .refused (js "decisions must be a non-empty array")
  | _ => .refused (js "body must be an object")

end Requests

end PolicyVerifier.Server
