import PolicyVerifier.Js.Json
import PolicyVerifier.Js.Strings
import PolicyVerifier.Lib.OrderedMap

/-!
# The Cedar JSON vocabulary a request is written in

The values are those the mapping builds: no record and no extension call.
-/

namespace PolicyVerifier.Cedar

open Js

/-- An entity reference: `User::"alice"` is `⟨User, alice⟩`. -/
structure CedarEntityUid where
  type : Str
  id : Str
deriving DecidableEq, Inhabited

/-- A number `Number.isSafeInteger` holds of. -/
abbrev SafeInteger := { n : Number // n.isSafeInteger = true }

/-- The integer a safe integer is: `-0` is zero. -/
def SafeInteger.toInt (n : SafeInteger) : Int := n.1.toInt?.getD 0

/-- One Cedar value in JSON form. -/
inductive CedarValue where
  | bool (b : Bool)
  | num (n : SafeInteger)
  | str (s : Str)
  | arr (items : List CedarValue)
  | entity (uid : CedarEntityUid)

/-- The request's `context` record. -/
abbrev CedarContext := OrderedMap Str CedarValue

/-- One entity handed to the evaluator inline with the request. -/
structure CedarEntity where
  uid : CedarEntityUid
  attrs : OrderedMap Str CedarValue := ∅
  parents : List CedarEntityUid := []

/-- `uidKey`: a uid as one string, type and id both. -/
def uidKey (uid : CedarEntityUid) : Str :=
  js "[" ++ Json.quote uid.type ++ js "," ++ Json.quote uid.id ++ js "]"

mutual

/-- `canonical`: a value as one string. An array is written as the set of its items. -/
def canonical : CedarValue → Str
  | .arr items => js "[" ++ join (js ",") (sort (canonicals items).eraseDups) ++ js "]"
  | .entity uid => js "entity:" ++ uidKey uid
  | .str s => Json.quote s
  | .bool true => js "true"
  | .bool false => js "false"
  | .num n => Json.integer n.toInt

/-- `items.map(canonical)`. -/
def canonicals : List CedarValue → List Str
  | [] => []
  | v :: vs => canonical v :: canonicals vs

end

/-- `sameCedarValue`, on two values or omissions. -/
def sameCedarValue : Option CedarValue → Option CedarValue → Bool
  | some a, some b => canonical a == canonical b
  | none, none => true
  | _, _ => false

end PolicyVerifier.Cedar
