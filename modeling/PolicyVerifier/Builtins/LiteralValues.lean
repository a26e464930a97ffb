import PolicyVerifier.Js.Json
import PolicyVerifier.Js.NumberText
import PolicyVerifier.Js.Operators
import PolicyVerifier.Js.Strings

/-!
# What an attribute rule is configured with

The checks the constructors of the attribute rules share, what each of them yields, and the key an array of
literals has in a `ruleType`.
-/

namespace PolicyVerifier.Builtins

open Js

/-! ## The hash -/

/-- `FNV_OFFSET_BASIS_64`. -/
def fnvOffsetBasis64 : Nat := 0xcbf29ce484222325

/-- `FNV_PRIME_64`. -/
def fnvPrime64 : Nat := 0x100000001b3

/-- The hash of the code units, as an integer of 64 bits. -/
def fnvHash (s : Str) : Nat := s.foldl (fun hash c => ((hash ^^^ c.toNat) * fnvPrime64) % 2 ^ 64) fnvOffsetBasis64

/-- `fnv1a64`: 16 lower-case hex characters. -/
def fnv1a64 (s : Str) : Str :=
  let digits := (Nat.toDigits 16 (fnvHash s)).flatMap units
  List.replicate (16 - digits.length) 0x30 ++ digits

/-! ## What the checks yield -/

/-- An attribute name, without the separator of derived rule types. -/
structure AttrName where
  text : Str
  nonempty : text ≠ []
  no_colon : (0x3A : UInt16) ∉ text

/-- `LiteralValue`: a string, a number that is not `NaN`, or a boolean. -/
inductive LiteralValue where
  | str (s : Str)
  | num (n : Number) (not_nan : n ≠ .nan)
  | bool (b : Bool)
deriving DecidableEq

namespace LiteralValue

def value : LiteralValue → Value
  | str s => .str s
  | num n _ => .num n
  | bool b => .bool b

/-- `typeof v`. -/
def typeName (v : LiteralValue) : Str := v.value.typeOf

/-- `String(v)`. -/
def text : LiteralValue → Str
  | str s => s
  | num n _ => numberText n
  | bool b => if b then js "true" else js "false"

/-- What a `Set` keeps the literal as. -/
def key : LiteralValue → LiteralValue
  | num .negZero _ => num (.rat 0) (by simp)
  | v => v

end LiteralValue

/-- A literal array that is not empty, of literals of one type. -/
structure LiteralArray where
  first : LiteralValue
  rest : List LiteralValue
  homogeneous : ∀ v ∈ rest, v.typeName = first.typeName

def LiteralArray.values (array : LiteralArray) : List LiteralValue := array.first :: array.rest

/-- `typeof values[0]`. -/
def LiteralArray.elementType (array : LiteralArray) : Str := array.first.typeName

/-- `CompareOp`. -/
inductive CompareOp where
  | lt
  | le
  | gt
  | ge
deriving DecidableEq

def CompareOp.name : CompareOp → Str
  | lt => js "lt"
  | le => js "le"
  | gt => js "gt"
  | ge => js "ge"

/-- `COMPARE_OPS`. -/
def compareOps : List CompareOp := [.lt, .le, .gt, .ge]

/-! ## The checks -/

/-- `describeType`. -/
def describeType : Value → Str
  | .null => js "null"
  | v => v.typeOf

/-- A field of a class's configuration, as a refusal names it. -/
def quotedField (className field : Str) : Str := className ++ js ": '" ++ field ++ js "'"

def requireAttrName (className fieldName : Str) (value : Value) : Except Str AttrName :=
  match value with
  | .str text =>
    if nonempty : text = [] then
      .error (quotedField className fieldName ++ js " must be a non-empty string, got empty string")
    else if no_colon : (0x3A : UInt16) ∈ text then
      .error (quotedField className fieldName ++
        js " must not contain ':' (reserved as ruleType separator), got '" ++ text ++ js "'")
    else .ok { text, nonempty, no_colon }
  | _ => .error (quotedField className fieldName ++ js " must be a non-empty string, got " ++ describeType value)

def requireLiteralValue (className fieldName : Str) (value : Value) : Except Str LiteralValue :=
  match value with
  | .str s => .ok (.str s)
  | .bool b => .ok (.bool b)
  | .num n =>
    if not_nan : n = .nan then .error (quotedField className fieldName ++ js " must not be NaN")
    else .ok (.num n not_nan)
  | _ =>
    .error (quotedField className fieldName ++ js " must be string | number | boolean, got " ++
      describeType value)

def requireNumber (className fieldName : Str) (value : Value) : Except Str { n : Number // n ≠ .nan } :=
  match value with
  | .num n =>
    if not_nan : n = .nan then .error (quotedField className fieldName ++ js " must not be NaN")
    else .ok ⟨n, not_nan⟩
  | _ => .error (quotedField className fieldName ++ js " must be a number, got " ++ describeType value)

/-- One element of an array of literals. -/
def requireElement (className : Str) (element : Value) : Except Str LiteralValue :=
  match element with
  | .str s => .ok (.str s)
  | .bool b => .ok (.bool b)
  | .num n =>
    if not_nan : n = .nan then .error (quotedField className (js "values") ++ js " must not contain NaN")
    else .ok (.num n not_nan)
  | _ =>
    .error (quotedField className (js "values") ++ js " elements must be string | number | boolean, got " ++
      describeType element)

/-- `[...seenTypes]`. -/
def seenTypes (values : List LiteralValue) : List Str := (values.map LiteralValue.typeName).eraseDups

theorem homogeneous_of_seenTypes {first : LiteralValue} {rest : List LiteralValue}
    (h : ¬ 1 < (seenTypes (first :: rest)).length) : ∀ v ∈ rest, v.typeName = first.typeName := by
  intro v hv
  by_contra hne
  have hother : v.typeName ∈ (seenTypes (first :: rest)).tail := by
    rw [seenTypes, List.map_cons, List.eraseDups_cons, List.tail_cons, List.mem_eraseDups, List.mem_filter]
    exact ⟨List.mem_map_of_mem hv, by simpa using hne⟩
  have hpos := List.length_pos_of_mem hother
  rw [List.length_tail] at hpos
  omega

def requireHomogeneousLiteralArray (className : Str) (value : Value) : Except Str LiteralArray :=
  match value with
  | .arr _ [] => .error (quotedField className (js "values") ++ js " must be a non-empty array")
  | .arr _ (element :: elements) => do
    let first ← requireElement className element
    let rest ← elements.mapM (requireElement className)
    if mixed : 1 < (seenTypes (first :: rest)).length then
      .error (quotedField className (js "values") ++
        js " must be a homogeneous array of string | number | boolean; got mixed types [" ++
        join (js ", ") (seenTypes (first :: rest)) ++ js "]")
    else .ok { first, rest, homogeneous := homogeneous_of_seenTypes mixed }
  | _ =>
    .error (quotedField className (js "values") ++
      js " must be a non-empty array of string | number | boolean, got " ++ describeType value)

def requireCompareOp (className : Str) (value : Value) : Except Str CompareOp :=
  match value with
  | .str s =>
    match compareOps.find? fun op => op.name = s with
    | some op => .ok op
    | none => .error (refused ++ js "'" ++ s ++ js "'")
  | _ => .error (refused ++ describeType value)
where
  /-- What any other operator is refused with, but for what it is. -/
  refused : Str :=
    quotedField className (js "op") ++ js " must be one of " ++
      join (js " | ") (compareOps.map CompareOp.name) ++ js ", got "

def requireOptionalGroup (className : Str) (value : Value) : Except Str (Option Str) :=
  match value with
  | .undefined => .ok none
  | .str s => if s = [] then .error (refused ++ js "empty string") else .ok (some s)
  | _ => .error (refused ++ describeType value)
where
  /-- What an unusable group is refused with, but for what it is. -/
  refused : Str := quotedField className (js "group") ++ js " must be a non-empty string or undefined, got "

/-! ## The key of an array -/

/-- `[...new Set(values)]`. -/
def LiteralArray.unique (array : LiteralArray) : List LiteralValue := (array.values.map LiteralValue.key).eraseDups

/-- The text a key is the hash of. -/
def LiteralArray.joined (array : LiteralArray) : Str :=
  join (js ",") (sort (array.unique.map fun v => Json.quote v.text))

def computeValuesKey (array : LiteralArray) : Str :=
  array.elementType ++ js ":" ++ decimal array.unique.length ++ js ":" ++ fnv1a64 array.joined

def applyCompare (op : CompareOp) (left right : Number) : Bool :=
  match op with
  | .lt => left.less right
  | .le => left.lessOrEqual right
  | .gt => right.less left
  | .ge => right.lessOrEqual left

end PolicyVerifier.Builtins
