import PolicyVerifier.Builtins.LiteralValues
import PolicyVerifier.Core.Evaluate

/-!
# The attribute rules

The nine classes of rules that hold an attribute to a literal or to another attribute, each built from its
configuration. A class's own function is the rule over what the configuration was read as; `new` is its
constructor.
-/

namespace PolicyVerifier.Builtins

open Js PolicyVerifier.Core

/-- `attrs.get(name)`. -/
def attrAt (attrs : Attributes) (name : AttrName) : Value := (attrs.get? name.text).getD .undefined

/-- A rule that answers at once with a boolean. -/
def attrRule (ruleType code message : Str) (verify : Attributes → Bool) : AnyRule where
  ruleType
  code
  message
  verify attrs := { answer := .ok (.bool (verify attrs)) }
  decide _ := []

/-- What the message of an attribute rule begins with. -/
def notSatisfied : Str := js "Attribute constraint not satisfied: "

/-! ## A literal -/

def attrLiteralEqual (a : AttrName) (v : LiteralValue) (group : Option Str) : AnyRule :=
  attrRule (group.getD (js "attr_literal_equal:" ++ a.text ++ js ":" ++ v.typeName ++ js ":" ++ v.text))
    (js "attr_not_equal") (notSatisfied ++ a.text ++ js " must equal " ++ v.text ++ js ".")
    fun attrs =>
      let x := attrAt attrs a
      if x.typeOf ≠ v.typeName then false else strictEquals x v.value

def attrLiteralNotEqual (a : AttrName) (v : LiteralValue) (group : Option Str) : AnyRule :=
  attrRule (group.getD (js "attr_literal_not_equal:" ++ a.text ++ js ":" ++ v.typeName ++ js ":" ++ v.text))
    (js "attr_equal") (notSatisfied ++ a.text ++ js " must not equal " ++ v.text ++ js ".")
    fun attrs =>
      let x := attrAt attrs a
      if x.typeOf ≠ v.typeName then false
      else if x = .num .nan then false
      else !strictEquals x v.value

def attrLiteralCompare (a : AttrName) (op : CompareOp) (v : { n : Number // n ≠ .nan })
    (group : Option Str) : AnyRule :=
  attrRule (group.getD (js "attr_literal_compare:" ++ a.text ++ js ":" ++ op.name ++ js ":" ++ numberText v))
    (js "attr_compare_violated")
    (notSatisfied ++ a.text ++ js " must be " ++ op.name ++ js " " ++ numberText v ++ js ".")
    fun attrs =>
      match attrAt attrs a with
      | .num x => applyCompare op x v
      | _ => false

/-! ## A set of literals -/

/-- `valuesSet.has(x)`. -/
def LiteralArray.has (values : LiteralArray) (x : Value) : Bool :=
  values.unique.any fun v => decide (v.value = x.mapKey)

/-- `values.map(String).join(", ")`. -/
def LiteralArray.listed (values : LiteralArray) : Str := join (js ", ") (values.values.map LiteralValue.text)

def attrLiteralIn (a : AttrName) (values : LiteralArray) (group : Option Str) : AnyRule :=
  attrRule (group.getD (js "attr_literal_in:" ++ a.text ++ js ":" ++ computeValuesKey values))
    (js "attr_not_in_set") (notSatisfied ++ a.text ++ js " must be one of [" ++ values.listed ++ js "].")
    fun attrs =>
      let x := attrAt attrs a
      if x.typeOf ≠ values.elementType then false else values.has x

def attrLiteralNotIn (a : AttrName) (values : LiteralArray) (group : Option Str) : AnyRule :=
  attrRule (group.getD (js "attr_literal_not_in:" ++ a.text ++ js ":" ++ computeValuesKey values))
    (js "attr_in_set") (notSatisfied ++ a.text ++ js " must not be one of [" ++ values.listed ++ js "].")
    fun attrs =>
      let x := attrAt attrs a
      if x.typeOf ≠ values.elementType then false
      else if x = .num .nan then false
      else !values.has x

/-! ## Another attribute -/

/-- Both attributes, when both are non-empty strings. -/
def stringPair (attrs : Attributes) (a b : AttrName) : Option (Str × Str) :=
  match attrAt attrs a, attrAt attrs b with
  | .str x, .str y => if x = [] ∨ y = [] then none else some (x, y)
  | _, _ => none

def attrPairEqual (a b : AttrName) (group : Option Str) : AnyRule :=
  attrRule (group.getD (js "attr_pair_equal:" ++ a.text ++ js ":" ++ b.text))
    (js "attr_mismatch") (notSatisfied ++ a.text ++ js " must equal " ++ b.text ++ js ".")
    fun attrs => (stringPair attrs a b).any fun pair => pair.1 == pair.2

def attrPairNotEqual (a b : AttrName) (group : Option Str) : AnyRule :=
  attrRule (group.getD (js "attr_pair_not_equal:" ++ a.text ++ js ":" ++ b.text))
    (js "attr_match") (notSatisfied ++ a.text ++ js " must not equal " ++ b.text ++ js ".")
    fun attrs => (stringPair attrs a b).any fun pair => pair.1 != pair.2

def attrPairCompare (a : AttrName) (op : CompareOp) (b : AttrName) (group : Option Str) : AnyRule :=
  attrRule (group.getD (js "attr_pair_compare:" ++ a.text ++ js ":" ++ op.name ++ js ":" ++ b.text))
    (js "attr_compare_violated")
    (notSatisfied ++ a.text ++ js " must be " ++ op.name ++ js " " ++ b.text ++ js ".")
    fun attrs =>
      match attrAt attrs a, attrAt attrs b with
      | .num x, .num y => applyCompare op x y
      | _, _ => false

/-- An `AttrPairEqual` under its own `ruleType` and message. -/
def attrMatchRule (a b : AttrName) (group : Option Str) : AnyRule :=
  { attrPairEqual a b group with
    ruleType := group.getD (js "attr_match:" ++ a.text ++ js ":" ++ b.text)
    message := notSatisfied ++ a.text ++ js " and " ++ b.text ++ js " must both be non-empty strings and equal." }

/-! ## The constructors -/

/-- The constructor of a class that compares an attribute with one literal. -/
def newLiteral (className : Str) (rule : AttrName → LiteralValue → Option Str → AnyRule) (config : Value) :
    Except Str AnyRule := do
  let a ← requireAttrName className (js "a") (config.field (js "a"))
  let v ← requireLiteralValue className (js "v") (config.field (js "v"))
  let group ← requireOptionalGroup className (config.field (js "group"))
  .ok (rule a v group)

/-- The constructor of a class that looks an attribute up in a set of literals. -/
def newValues (className : Str) (rule : AttrName → LiteralArray → Option Str → AnyRule) (config : Value) :
    Except Str AnyRule := do
  let a ← requireAttrName className (js "a") (config.field (js "a"))
  let values ← requireHomogeneousLiteralArray className (config.field (js "values"))
  let group ← requireOptionalGroup className (config.field (js "group"))
  .ok (rule a values group)

/-- The constructor of a class that compares two attributes as strings. -/
def newPair (className : Str) (rule : AttrName → AttrName → Option Str → AnyRule) (config : Value) :
    Except Str AnyRule := do
  let a ← requireAttrName className (js "a") (config.field (js "a"))
  let b ← requireAttrName className (js "b") (config.field (js "b"))
  let group ← requireOptionalGroup className (config.field (js "group"))
  .ok (rule a b group)

def AttrLiteralEqual.new : Value → Except Str AnyRule := newLiteral (js "AttrLiteralEqual") attrLiteralEqual

def AttrLiteralNotEqual.new : Value → Except Str AnyRule :=
  newLiteral (js "AttrLiteralNotEqual") attrLiteralNotEqual

def AttrLiteralCompare.new (config : Value) : Except Str AnyRule := do
  let a ← requireAttrName (js "AttrLiteralCompare") (js "a") (config.field (js "a"))
  let v ← requireNumber (js "AttrLiteralCompare") (js "v") (config.field (js "v"))
  let op ← requireCompareOp (js "AttrLiteralCompare") (config.field (js "op"))
  let group ← requireOptionalGroup (js "AttrLiteralCompare") (config.field (js "group"))
  .ok (attrLiteralCompare a op v group)

def AttrLiteralIn.new : Value → Except Str AnyRule := newValues (js "AttrLiteralIn") attrLiteralIn

def AttrLiteralNotIn.new : Value → Except Str AnyRule := newValues (js "AttrLiteralNotIn") attrLiteralNotIn

def AttrPairEqual.new : Value → Except Str AnyRule := newPair (js "AttrPairEqual") attrPairEqual

def AttrPairNotEqual.new : Value → Except Str AnyRule := newPair (js "AttrPairNotEqual") attrPairNotEqual

def AttrPairCompare.new (config : Value) : Except Str AnyRule := do
  let a ← requireAttrName (js "AttrPairCompare") (js "a") (config.field (js "a"))
  let b ← requireAttrName (js "AttrPairCompare") (js "b") (config.field (js "b"))
  let op ← requireCompareOp (js "AttrPairCompare") (config.field (js "op"))
  let group ← requireOptionalGroup (js "AttrPairCompare") (config.field (js "group"))
  .ok (attrPairCompare a op b group)

/-- The checks are its parent's, which name the parent. -/
def AttrMatchRule.new : Value → Except Str AnyRule := newPair (js "AttrPairEqual") attrMatchRule

/-- The classes. -/
inductive AttrRuleClass where
  | literalEqual
  | literalNotEqual
  | literalCompare
  | literalIn
  | literalNotIn
  | pairEqual
  | pairNotEqual
  | pairCompare
  | matchRule
deriving DecidableEq

/-- `new` of the class. -/
def AttrRuleClass.new : AttrRuleClass → Value → Except Str AnyRule
  | literalEqual => AttrLiteralEqual.new
  | literalNotEqual => AttrLiteralNotEqual.new
  | literalCompare => AttrLiteralCompare.new
  | literalIn => AttrLiteralIn.new
  | literalNotIn => AttrLiteralNotIn.new
  | pairEqual => AttrPairEqual.new
  | pairNotEqual => AttrPairNotEqual.new
  | pairCompare => AttrPairCompare.new
  | matchRule => AttrMatchRule.new

end PolicyVerifier.Builtins
