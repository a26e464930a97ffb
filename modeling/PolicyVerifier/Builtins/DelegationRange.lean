import PolicyVerifier.Core.Evaluate

/-!
# A delegated token's range

The paths a delegated token is confined to, in the grammar `(type(:id)?.)*action`: how one is read, when
one contains another, and the three that share it. `DelegationRangeCollector` reads the range out of the
token, `DelegationRangeRuleCollector` decides whether the token has one, and `WithinDelegationRange` holds
the request to it.
-/

namespace PolicyVerifier.Builtins

open Js PolicyVerifier.Core

/-- `ATTR_DELEGATION_RANGE`. -/
def attrDelegationRange : Str := js "delegationRange"

/-- `DEFAULT_AUTHORIZATION_DETAILS_CLAIM`. -/
def defaultAuthorizationDetailsClaim : Str := js "authorization_details"

/-! ## The grammar -/

/-- One element of a path: a type, and an id when the path names one. -/
structure RangeElement where
  type : Str
  id : Option Str := none
deriving DecidableEq

/-- `[a-z]`. -/
def isNameStart (c : UInt16) : Bool := 0x61 ≤ c && c ≤ 0x7A

/-- `[a-z0-9_]`. -/
def isNamePart (c : UInt16) : Bool := isNameStart c || (0x30 ≤ c && c ≤ 0x39) || c == 0x5F

/-- `NAME`: a type, or the action that ends a path. -/
def isName : Str → Bool
  | [] => false
  | c :: cs => isNameStart c && cs.all isNamePart

/-- `[A-Za-z0-9_~-]`. -/
def isUnreserved (c : UInt16) : Bool :=
  (0x41 ≤ c && c ≤ 0x5A) || (0x61 ≤ c && c ≤ 0x7A) || (0x30 ≤ c && c ≤ 0x39) || c == 0x5F ||
    c == 0x7E || c == 0x2D

/-- `[0-9A-F]`. -/
def isUpperHex (c : UInt16) : Bool := (0x30 ≤ c && c ≤ 0x39) || (0x41 ≤ c && c ≤ 0x46)

/-- What the repetition of `ID` matches. -/
def isIdRest : Str → Bool
  | [] => true
  | c :: cs =>
    if c = 0x25 then
      match cs with
      | a :: b :: rest => isUpperHex a && isUpperHex b && isIdRest rest
      | _ => false
    else isUnreserved c && isIdRest cs

/-- `ID`: unreserved characters, anything else percent-encoded in upper-case hex. -/
def isId (id : Str) : Bool := !id.isEmpty && isIdRest id

/-- One part of a path; the last one carries no id. -/
def parseElement (last : Bool) (part : Str) : Option RangeElement :=
  match part.splitOn 0x3A with
  | [type] => if isName type then some { type } else none
  | [type, id] =>
    if isName type then
      if last || !isId id then none else some { type, id := some id }
    else none
  | _ => none

/-- The parts of a path from one on. -/
def parseParts : List Str → Option (List RangeElement)
  | [] => some []
  | part :: parts =>
    match parseElement parts.isEmpty part with
    | none => none
    | some element => (parseParts parts).map (element :: ·)

/-- Reads a path as `(type(:id)?.)*action`. -/
def parseRangePath (path : Str) : Option (List RangeElement) :=
  if path = [] then none else parseParts (path.splitOn 0x2E)

/-- The requested path, or none when the action is not one action of the grammar. -/
def requestedRangePath (resource action : Str) : Option Str :=
  if isName action then some (resource ++ js "." ++ action) else none

/-- Whether a range entry contains the requested path: it is a prefix of it, element by element, and an
element that names no id contains the same type with any. -/
def rangeContains (entry path : Str) : Bool :=
  match parseRangePath entry, parseRangePath path with
  | some within, some requested =>
    if requested.length < within.length then false
    else (within.zip requested).all fun (element, request) =>
      element.type == request.type && (element.id == none || element.id == request.id)
  | _, _ => false

/-! ## The claim -/

def isEntryObject : Value → Bool
  | .obj _ _ => true
  | _ => false

/-- The claim's entries of the type, or none when the token has no range. -/
def entriesOfType (claim : Value) (type : Str) : Option (List Value) :=
  match claim with
  | .undefined => none
  | .arr _ items =>
    if items.all isEntryObject then
      let entries := items.filter fun entry => decide (entry.field (js "type") = .str type)
      if 0 < entries.length then some entries else none
    else some []
  | _ => some []

/-- The entries' paths that are in the grammar. -/
def rangePaths (entries : List Value) : List Str :=
  (entries.filterMap fun entry => (entry.field (js "path")).str?).filter fun path =>
    (parseRangePath path).isSome

/-! ## The options -/

/-- Resolves the `type` option, which has no default. -/
def resolveRangeType (collector : Str) (raw : Value) : Except Str Str :=
  match raw with
  | .str type => if type = [] then .error refused else .ok type
  | _ => .error refused
where
  /-- What an unusable type is refused with. -/
  refused : Str := collector ++ js ": type must be the authorization_details type the delegation range is carried under, a non-empty string"

/-- Resolves a `claim` option: absent means the fallback. -/
def resolveClaimName (collector : Str) (raw : Value) (fallback : Str) : Except Str Str :=
  match raw with
  | .undefined => .ok fallback
  | .str claim => if claim = [] then .error refused else .ok claim
  | _ => .error refused
where
  /-- What an unusable claim name is refused with. -/
  refused : Str := collector ++ js ": claim must be a non-empty string"

/-! ## The attribute collector -/

structure DelegationRangeCollector where
  type : Str
  claim : Str

namespace DelegationRangeCollector

def new (config : Value) : Except Str DelegationRangeCollector := do
  let type ← resolveRangeType (js "DelegationRangeCollector") (config.field (js "type"))
  let claim ← resolveClaimName (js "DelegationRangeCollector") (config.field (js "claim"))
    defaultAuthorizationDetailsClaim
  .ok { type, claim }

/-- The token's range, or nothing when it has none. -/
def collect (self : DelegationRangeCollector) (context : CollectorContext) : Attributes :=
  match entriesOfType (context.subject self.claim) self.type with
  | none => ∅
  | some entries =>
    OrderedMap.ofList [(attrDelegationRange, Value.strings (rangePaths entries))]

end DelegationRangeCollector

/-! ## The rule and its collector -/

/-- The rule for a requested path, or for a request that has none. -/
def withinDelegationRange (path : Option Str) : AnyRule where
  ruleType := js "delegation_range"
  code := js "outside_delegation_range"
  restricts := .bool true
  message :=
    match path with
    | none => js "Request is outside the token's delegation range: its action is not one action of the range grammar"
    | some path => js "Request is outside the token's delegation range: " ++ path
  verify attrs := { answer := .ok (.bool (verify attrs)) }
  decide _ := []
where
  /-- An entry of the range contains the path. -/
  verify (attrs : Attributes) : Bool :=
    match path with
    | none => false
    | some path =>
      match attrs.get? attrDelegationRange with
      | some (.arr _ range) => range.any fun entry => entry.str?.any (rangeContains · path)
      | _ => false

structure DelegationRangeRuleCollector where
  type : Str
  claim : Str

namespace DelegationRangeRuleCollector

def new (config : Value) : Except Str DelegationRangeRuleCollector := do
  let type ← resolveRangeType (js "DelegationRangeRuleCollector") (config.field (js "type"))
  let claim ← resolveClaimName (js "DelegationRangeRuleCollector") (config.field (js "claim"))
    defaultAuthorizationDetailsClaim
  .ok { type, claim }

/-- One rule for a token that has a range, none for one that has not. -/
def collect (self : DelegationRangeRuleCollector) (context : CollectorContext) : List AnyRule :=
  match entriesOfType (context.subject self.claim) self.type with
  | none => []
  | some _ => [withinDelegationRange (requestedRangePath context.resource.raw context.action)]

end DelegationRangeRuleCollector

end PolicyVerifier.Builtins
