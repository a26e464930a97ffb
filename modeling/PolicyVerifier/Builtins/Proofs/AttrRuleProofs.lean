import PolicyVerifier.Builtins.AttrRules
import PolicyVerifier.Js.Proofs.JsonProofs
import PolicyVerifier.Js.Proofs.NumberTextProofs
import PolicyVerifier.Lib.ExceptFold
import PolicyVerifier.Lib.Framing

/-!
# Rule types of attribute rules

Rules that share a `ruleType` are alternatives of one group. A rule type that a class derives tells the class,
the attribute and all that the rule compares it with, so two rules in one group answer alike.
-/

namespace PolicyVerifier.Builtins

open Js PolicyVerifier.Core

/-! ## Literals -/

theorem LiteralValue.mapKey_value (v : LiteralValue) : v.value.mapKey = v.key.value := by
  cases v with
  | str s => rfl
  | bool b => rfl
  | num n h => cases n <;> rfl

theorem LiteralValue.value_injective {v w : LiteralValue} (h : v.value = w.value) : v = w := by
  cases v <;> cases w <;> simp_all [LiteralValue.value]

theorem LiteralValue.key_key (v : LiteralValue) : v.key.key = v.key := by
  cases v with
  | str s => rfl
  | bool b => rfl
  | num n h => cases n <;> rfl

theorem LiteralValue.typeName_key (v : LiteralValue) : v.key.typeName = v.typeName := by
  cases v with
  | str s => rfl
  | bool b => rfl
  | num n h => cases n <;> rfl

theorem LiteralValue.colon_not_mem_typeName (v : LiteralValue) : (0x3A : UInt16) ∉ v.typeName := by
  have hstring : (0x3A : UInt16) ∉ js "string" := by decide
  have hnumber : (0x3A : UInt16) ∉ js "number" := by decide
  have hboolean : (0x3A : UInt16) ∉ js "boolean" := by decide
  cases v with
  | str s => exact hstring
  | num n h => exact hnumber
  | bool b => exact hboolean

/-- The type and the text of a literal tell it, up to the sign of zero. -/
theorem LiteralValue.key_eq_iff {v w : LiteralValue} :
    v.key = w.key ↔ v.typeName = w.typeName ∧ v.text = w.text := by
  have htypes : js "string" ≠ js "number" ∧ js "string" ≠ js "boolean" ∧ js "number" ≠ js "boolean" := by decide
  obtain ⟨hsn, hsb, hnb⟩ := htypes
  have hnumber : ∀ n h m h', (num n h).key = (num m h').key ↔ numberText n = numberText m := by
    intro n h m h'
    have hvalue : (Value.num n).mapKey = (Value.num m).mapKey ↔ (num n h).key = (num m h').key := by
      rw [show Value.num n = (num n h).value from rfl, show Value.num m = (num m h').value from rfl,
        mapKey_value, mapKey_value]
      exact ⟨value_injective, fun heq => by rw [heq]⟩
    rw [← hvalue, numberText_eq_iff]
  constructor
  · intro h
    refine ⟨by rw [← typeName_key v, h, typeName_key], ?_⟩
    have htext : ∀ v : LiteralValue, v.key.text = v.text := by
      intro v
      cases v with
      | num n hn =>
        cases n with
        | negZero =>
          show numberText (.rat 0) = numberText .negZero
          exact numberText_eq_iff.2 rfl
        | _ => rfl
      | _ => rfl
    rw [← htext v, h, htext]
  · rintro ⟨htype, htext⟩
    cases v with
    | str s =>
      cases w with
      | str t => exact congrArg str htext
      | num n h => exact absurd htype hsn
      | bool b => exact absurd htype hsb
    | num n h =>
      cases w with
      | str t => exact absurd htype.symm hsn
      | num m h' => exact (hnumber n h m h').2 htext
      | bool b => exact absurd htype hnb
    | bool b =>
      cases w with
      | str t => exact absurd htype.symm hsb
      | num m h => exact absurd htype.symm hnb
      | bool b' => cases b <;> cases b' <;> first | rfl | exact absurd htext (by decide)

theorem strictEquals_of_key {v w : LiteralValue} (h : v.key = w.key) (x : Value) :
    strictEquals x v.value = strictEquals x w.value := by
  rw [strictEquals, strictEquals, v.mapKey_value, w.mapKey_value, h]

theorem applyCompare_of_text {m n : Number} (h : numberText m = numberText n) (op : CompareOp) (x : Number) :
    applyCompare op x m = applyCompare op x n := by
  have hplace := Number.extended_eq_of_mapKey (numberText_eq_iff.1 h)
  cases op <;> simp only [applyCompare, Number.less, Number.lessOrEqual, hplace]

/-! ## Sets of literals -/

/-- Two arrays hold one set: order, repetition and the sign of zero aside. -/
def SameSet (xs ys : LiteralArray) : Prop :=
  ∀ v, v ∈ xs.values.map LiteralValue.key ↔ v ∈ ys.values.map LiteralValue.key

theorem LiteralArray.mem_unique {array : LiteralArray} {v : LiteralValue} :
    v ∈ array.unique ↔ v ∈ array.values.map LiteralValue.key := List.mem_eraseDups

theorem LiteralArray.typeName_of_mem {array : LiteralArray} {v : LiteralValue} (h : v ∈ array.unique) :
    v.typeName = array.elementType ∧ v.key = v := by
  obtain ⟨w, hw, rfl⟩ := List.mem_map.1 (mem_unique.1 h)
  refine ⟨?_, w.key_key⟩
  rw [w.typeName_key]
  rcases List.mem_cons.1 hw with rfl | hw
  · rfl
  · exact array.homogeneous w hw

theorem LiteralArray.first_mem_unique (array : LiteralArray) : array.first.key ∈ array.unique :=
  mem_unique.2 (List.mem_map_of_mem (List.mem_cons_self ..))

/-- Quoted strings that are joined can be taken apart in one way only. -/
theorem join_quoted_injective {xs ys : List Str} (hxs : ∀ s ∈ xs, ∃ t, s = Json.quote t)
    (hys : ∀ s ∈ ys, ∃ t, s = Json.quote t) (h : join (js ",") xs = join (js ",") ys) : xs = ys := by
  have hopens : ∀ {s : Str} {rest : List Str}, (∃ t, s = Json.quote t) → join (js ",") (s :: rest) ≠ [] := by
    rintro s rest ⟨t, rfl⟩
    cases rest <;> simp [join, Json.quote, List.intercalate_cons_cons]
  induction xs generalizing ys with
  | nil =>
    cases ys with
    | nil => rfl
    | cons s ys => exact absurd h.symm (hopens (hys s (by simp)))
  | cons s xs ih =>
    cases ys with
    | nil => exact absurd h (hopens (hxs s (by simp)))
    | cons s' ys =>
      obtain ⟨t, rfl⟩ := hxs s (by simp)
      obtain ⟨t', rfl⟩ := hys s' (by simp)
      have hcut : ∀ (t : Str) (rest : List Str), ∃ after, join (js ",") (Json.quote t :: rest) =
          Json.quote t ++ after ∧ (rest = [] ∧ after = [] ∨
            rest ≠ [] ∧ after = js "," ++ join (js ",") rest) := by
        intro t rest
        cases rest with
        | nil => exact ⟨[], by simp [join], Or.inl ⟨rfl, rfl⟩⟩
        | cons next rest =>
          exact ⟨js "," ++ join (js ",") (next :: rest),
            by simp [join, List.intercalate_cons_cons], Or.inr ⟨by simp, rfl⟩⟩
      obtain ⟨after, hjoin, hafter⟩ := hcut t xs
      obtain ⟨after', hjoin', hafter'⟩ := hcut t' ys
      rw [hjoin, hjoin'] at h
      obtain ⟨rfl, rfl⟩ := Json.quote_append_inj h
      refine congrArg _ ?_
      rcases hafter with ⟨rfl, rfl⟩ | ⟨hne, rfl⟩
      · rcases hafter' with ⟨rfl, -⟩ | ⟨-, habsurd⟩
        · rfl
        · exact absurd habsurd (by simp [js, units])
      · rcases hafter' with ⟨rfl, habsurd⟩ | ⟨-, heq⟩
        · exact absurd habsurd (by simp [js, units])
        · exact ih (fun s hs => hxs s (by simp [hs])) (fun s hs => hys s (by simp [hs]))
            (List.append_cancel_left heq)

/-- The type, the count and the text of an array are those of another exactly when both hold one set. -/
theorem sameSet_iff {xs ys : LiteralArray} :
    SameSet xs ys ↔ xs.elementType = ys.elementType ∧ xs.unique.length = ys.unique.length ∧
      xs.joined = ys.joined := by
  constructor
  · intro h
    have hperm : xs.unique.Perm ys.unique := by
      refine (List.perm_ext_iff_of_nodup (nodup_eraseDups _) (nodup_eraseDups _)).2 fun v => ?_
      exact LiteralArray.mem_unique.trans ((h v).trans LiteralArray.mem_unique.symm)
    refine ⟨?_, hperm.length_eq, ?_⟩
    · have hfirst := hperm.mem_iff.1 xs.first_mem_unique
      rw [← (LiteralArray.typeName_of_mem hfirst).1, LiteralValue.typeName_key]
      rfl
    · rw [LiteralArray.joined, LiteralArray.joined, sort_eq_iff_perm.2 (hperm.map _)]
  · rintro ⟨htype, -, hjoined⟩
    have hquoted : ∀ (array : LiteralArray), ∀ s ∈ sort (array.unique.map fun v => Json.quote v.text),
        ∃ t, s = Json.quote t := by
      intro array s hs
      obtain ⟨v, -, rfl⟩ := List.mem_map.1 (mem_sort.1 hs)
      exact ⟨v.text, rfl⟩
    have hperm := sort_eq_iff_perm.1 (join_quoted_injective (hquoted xs) (hquoted ys) hjoined)
    have hsub : ∀ {xs ys : LiteralArray}, xs.elementType = ys.elementType →
        ((xs.unique.map fun v => Json.quote v.text).Perm (ys.unique.map fun v => Json.quote v.text)) →
        ∀ v ∈ xs.unique, v ∈ ys.unique := by
      intro xs ys htype hperm v hv
      obtain ⟨w, hw, hquote⟩ := List.mem_map.1 (hperm.mem_iff.1 (List.mem_map_of_mem hv))
      obtain ⟨hvtype, hvkey⟩ := LiteralArray.typeName_of_mem hv
      obtain ⟨hwtype, hwkey⟩ := LiteralArray.typeName_of_mem hw
      have heq : v.key = w.key :=
        LiteralValue.key_eq_iff.2 ⟨by rw [hvtype, hwtype, htype], (Json.quote_injective hquote).symm⟩
      rw [← hvkey, heq, hwkey]
      exact hw
    intro v
    rw [← LiteralArray.mem_unique, ← LiteralArray.mem_unique]
    exact ⟨hsub htype hperm v, hsub htype.symm hperm.symm v⟩

theorem SameSet.has_eq {xs ys : LiteralArray} (h : SameSet xs ys) (x : Value) : xs.has x = ys.has x := by
  rw [Bool.eq_iff_iff, LiteralArray.has, LiteralArray.has, List.any_eq_true, List.any_eq_true]
  refine exists_congr fun v => and_congr_left fun _ => ?_
  rw [LiteralArray.mem_unique, LiteralArray.mem_unique]
  exact h v

/-! ## Constructors -/

theorem requireOptionalGroup_undefined {className : Str} {group : Option Str}
    (h : requireOptionalGroup className .undefined = .ok group) : group = none := (Except.ok.inj h).symm

section New

variable {className : Str} {config : Value} {built : AnyRule}

/-- The end of every constructor, where the configuration names no group. -/
theorem newGroup_ok {rule : Option Str → AnyRule}
    (h : (requireOptionalGroup className (config.field (js "group")) >>= fun group => .ok (rule group)) = .ok built)
    (hgroup : config.field (js "group") = .undefined) : built = rule none := by
  obtain ⟨group, hok, h⟩ := ExceptFold.bind_eq_ok h
  obtain rfl := requireOptionalGroup_undefined (hgroup ▸ hok)
  exact (Except.ok.inj h).symm

theorem newLiteral_ok {rule : AttrName → LiteralValue → Option Str → AnyRule}
    (h : newLiteral className rule config = .ok built) (hgroup : config.field (js "group") = .undefined) :
    ∃ a v, built = rule a v none := by
  obtain ⟨a, -, h⟩ := ExceptFold.bind_eq_ok h
  obtain ⟨v, -, h⟩ := ExceptFold.bind_eq_ok h
  exact ⟨a, v, newGroup_ok h hgroup⟩

theorem newValues_ok {rule : AttrName → LiteralArray → Option Str → AnyRule}
    (h : newValues className rule config = .ok built) (hgroup : config.field (js "group") = .undefined) :
    ∃ a values, requireAttrName className (js "a") (config.field (js "a")) = .ok a ∧
      requireHomogeneousLiteralArray className (config.field (js "values")) = .ok values ∧
        built = rule a values none := by
  obtain ⟨a, ha, h⟩ := ExceptFold.bind_eq_ok h
  obtain ⟨values, hvalues, h⟩ := ExceptFold.bind_eq_ok h
  exact ⟨a, values, ha, hvalues, newGroup_ok h hgroup⟩

/-- Two rules on one attribute, over arrays that are known. -/
theorem newValues_both {rule : AttrName → LiteralArray → Option Str → AnyRule} {config' : Value} {built' : AnyRule}
    {xs ys : LiteralArray} (h : newValues className rule config = .ok built)
    (h' : newValues className rule config' = .ok built') (hgroup : config.field (js "group") = .undefined)
    (hgroup' : config'.field (js "group") = .undefined)
    (ha : config.field (js "a") = config'.field (js "a"))
    (hxs : requireHomogeneousLiteralArray className (config.field (js "values")) = .ok xs)
    (hys : requireHomogeneousLiteralArray className (config'.field (js "values")) = .ok ys) :
    ∃ a, built = rule a xs none ∧ built' = rule a ys none := by
  obtain ⟨a, xs', haok, hxs', hbuilt⟩ := newValues_ok h hgroup
  obtain ⟨a', ys', haok', hys', hbuilt'⟩ := newValues_ok h' hgroup'
  obtain rfl := Except.ok.inj (hxs.symm.trans hxs')
  obtain rfl := Except.ok.inj (hys.symm.trans hys')
  obtain rfl := Except.ok.inj (haok.symm.trans (ha ▸ haok'))
  exact ⟨a, hbuilt, hbuilt'⟩

theorem newPair_ok {rule : AttrName → AttrName → Option Str → AnyRule}
    (h : newPair className rule config = .ok built) (hgroup : config.field (js "group") = .undefined) :
    ∃ a b, built = rule a b none := by
  obtain ⟨a, -, h⟩ := ExceptFold.bind_eq_ok h
  obtain ⟨b, -, h⟩ := ExceptFold.bind_eq_ok h
  exact ⟨a, b, newGroup_ok h hgroup⟩

theorem newLiteralCompare_ok (h : AttrLiteralCompare.new config = .ok built)
    (hgroup : config.field (js "group") = .undefined) : ∃ a op v, built = attrLiteralCompare a op v none := by
  obtain ⟨a, -, h⟩ := ExceptFold.bind_eq_ok h
  obtain ⟨v, -, h⟩ := ExceptFold.bind_eq_ok h
  obtain ⟨op, -, h⟩ := ExceptFold.bind_eq_ok h
  exact ⟨a, op, v, newGroup_ok h hgroup⟩

theorem newPairCompare_ok (h : AttrPairCompare.new config = .ok built)
    (hgroup : config.field (js "group") = .undefined) : ∃ a op b, built = attrPairCompare a op b none := by
  obtain ⟨a, -, h⟩ := ExceptFold.bind_eq_ok h
  obtain ⟨b, -, h⟩ := ExceptFold.bind_eq_ok h
  obtain ⟨op, -, h⟩ := ExceptFold.bind_eq_ok h
  exact ⟨a, op, b, newGroup_ok h hgroup⟩

end New

/-! ## Derived rule types -/

/-- What the derived rule types of a class begin with. -/
def AttrRuleClass.tag : AttrRuleClass → Str
  | literalEqual => js "attr_literal_equal"
  | literalNotEqual => js "attr_literal_not_equal"
  | literalCompare => js "attr_literal_compare"
  | literalIn => js "attr_literal_in"
  | literalNotIn => js "attr_literal_not_in"
  | pairEqual => js "attr_pair_equal"
  | pairNotEqual => js "attr_pair_not_equal"
  | pairCompare => js "attr_pair_compare"
  | matchRule => js "attr_match"

theorem AttrRuleClass.tag_injective {cls cls' : AttrRuleClass} (h : cls.tag = cls'.tag) : cls = cls' := by
  cases cls <;> cases cls' <;> first | rfl | exact absurd h (by decide)

theorem AttrRuleClass.colon_not_mem_tag (cls : AttrRuleClass) : (0x3A : UInt16) ∉ cls.tag := by
  cases cls <;> decide

/-- A derived rule type: the class, the attribute and what it is compared with. -/
def derivedType (cls : AttrRuleClass) (a : AttrName) (detail : Str) : Str :=
  cls.tag ++ 0x3A :: (a.text ++ 0x3A :: detail)

theorem AttrName.eq_of_text {a a' : AttrName} (h : a.text = a'.text) : a = a' := by
  cases a
  cases a'
  simp_all

theorem derivedType_injective {cls cls' : AttrRuleClass} {a a' : AttrName} {detail detail' : Str}
    (h : derivedType cls a detail = derivedType cls' a' detail') : cls = cls' ∧ a = a' ∧ detail = detail' := by
  obtain ⟨htag, hrest⟩ := Framing.cut_at_first cls.colon_not_mem_tag cls'.colon_not_mem_tag h
  obtain ⟨ha, hdetail⟩ := Framing.cut_at_first a.no_colon a'.no_colon hrest
  exact ⟨AttrRuleClass.tag_injective htag, AttrName.eq_of_text ha, hdetail⟩

/-- What a rule type goes on with after the attribute, in the classes that compare with a literal. -/
def literalDetail (v : LiteralValue) : Str := v.typeName ++ 0x3A :: v.text

/-- In the classes that look a literal up. -/
def valuesDetail (values : LiteralArray) : Str :=
  values.elementType ++ 0x3A :: (decimal values.unique.length ++ 0x3A :: fnv1a64 values.joined)

/-- In the classes that compare by an operator. -/
def compareDetail (op : CompareOp) (text : Str) : Str := op.name ++ 0x3A :: text

section RuleTypes

variable (a b : AttrName) (v : LiteralValue) (op : CompareOp) (n : { n : Number // n ≠ .nan })
  (values : LiteralArray)

theorem js_colon : js ":" = [(0x3A : UInt16)] := rfl

theorem ruleType_literalEqual :
    (attrLiteralEqual a v none).ruleType = derivedType .literalEqual a (literalDetail v) := by
  have htag : js "attr_literal_equal:" = AttrRuleClass.literalEqual.tag ++ [0x3A] := by decide
  simp [attrLiteralEqual, attrRule, derivedType, literalDetail, htag, js_colon]

theorem ruleType_literalNotEqual :
    (attrLiteralNotEqual a v none).ruleType = derivedType .literalNotEqual a (literalDetail v) := by
  have htag : js "attr_literal_not_equal:" = AttrRuleClass.literalNotEqual.tag ++ [0x3A] := by decide
  simp [attrLiteralNotEqual, attrRule, derivedType, literalDetail, htag, js_colon]

theorem ruleType_literalCompare :
    (attrLiteralCompare a op n none).ruleType =
      derivedType .literalCompare a (compareDetail op (numberText n)) := by
  have htag : js "attr_literal_compare:" = AttrRuleClass.literalCompare.tag ++ [0x3A] := by decide
  simp [attrLiteralCompare, attrRule, derivedType, compareDetail, htag, js_colon]

theorem ruleType_literalIn :
    (attrLiteralIn a values none).ruleType = derivedType .literalIn a (valuesDetail values) := by
  have htag : js "attr_literal_in:" = AttrRuleClass.literalIn.tag ++ [0x3A] := by decide
  simp [attrLiteralIn, attrRule, computeValuesKey, derivedType, valuesDetail, htag, js_colon]

theorem ruleType_literalNotIn :
    (attrLiteralNotIn a values none).ruleType = derivedType .literalNotIn a (valuesDetail values) := by
  have htag : js "attr_literal_not_in:" = AttrRuleClass.literalNotIn.tag ++ [0x3A] := by decide
  simp [attrLiteralNotIn, attrRule, computeValuesKey, derivedType, valuesDetail, htag, js_colon]

theorem ruleType_pairEqual : (attrPairEqual a b none).ruleType = derivedType .pairEqual a b.text := by
  have htag : js "attr_pair_equal:" = AttrRuleClass.pairEqual.tag ++ [0x3A] := by decide
  simp [attrPairEqual, attrRule, derivedType, htag, js_colon]

theorem ruleType_pairNotEqual : (attrPairNotEqual a b none).ruleType = derivedType .pairNotEqual a b.text := by
  have htag : js "attr_pair_not_equal:" = AttrRuleClass.pairNotEqual.tag ++ [0x3A] := by decide
  simp [attrPairNotEqual, attrRule, derivedType, htag, js_colon]

theorem ruleType_pairCompare :
    (attrPairCompare a op b none).ruleType = derivedType .pairCompare a (compareDetail op b.text) := by
  have htag : js "attr_pair_compare:" = AttrRuleClass.pairCompare.tag ++ [0x3A] := by decide
  simp [attrPairCompare, attrRule, derivedType, compareDetail, htag, js_colon]

theorem ruleType_match : (attrMatchRule a b none).ruleType = derivedType .matchRule a b.text := by
  have htag : js "attr_match:" = AttrRuleClass.matchRule.tag ++ [0x3A] := by decide
  simp [attrMatchRule, derivedType, htag, js_colon]

end RuleTypes

/-- A rule without a group has a rule type its class derives. -/
theorem ruleType_derived {cls : AttrRuleClass} {config : Value} {rule : AnyRule}
    (h : cls.new config = .ok rule) (hgroup : config.field (js "group") = .undefined) :
    ∃ a detail, rule.ruleType = derivedType cls a detail := by
  cases cls with
  | literalEqual =>
    obtain ⟨a, v, rfl⟩ := newLiteral_ok h hgroup
    exact ⟨a, _, ruleType_literalEqual a v⟩
  | literalNotEqual =>
    obtain ⟨a, v, rfl⟩ := newLiteral_ok h hgroup
    exact ⟨a, _, ruleType_literalNotEqual a v⟩
  | literalCompare =>
    obtain ⟨a, op, n, rfl⟩ := newLiteralCompare_ok h hgroup
    exact ⟨a, _, ruleType_literalCompare a op n⟩
  | literalIn =>
    obtain ⟨a, values, -, -, rfl⟩ := newValues_ok h hgroup
    exact ⟨a, _, ruleType_literalIn a values⟩
  | literalNotIn =>
    obtain ⟨a, values, -, -, rfl⟩ := newValues_ok h hgroup
    exact ⟨a, _, ruleType_literalNotIn a values⟩
  | pairEqual =>
    obtain ⟨a, b, rfl⟩ := newPair_ok h hgroup
    exact ⟨a, _, ruleType_pairEqual a b⟩
  | pairNotEqual =>
    obtain ⟨a, b, rfl⟩ := newPair_ok h hgroup
    exact ⟨a, _, ruleType_pairNotEqual a b⟩
  | pairCompare =>
    obtain ⟨a, op, b, rfl⟩ := newPairCompare_ok h hgroup
    exact ⟨a, _, ruleType_pairCompare a b op⟩
  | matchRule =>
    obtain ⟨a, b, rfl⟩ := newPair_ok h hgroup
    exact ⟨a, _, ruleType_match a b⟩

/-! ## One group, one answer -/

theorem literalDetail_injective {v w : LiteralValue} (h : literalDetail v = literalDetail w) : v.key = w.key :=
  LiteralValue.key_eq_iff.2 (Framing.cut_at_first v.colon_not_mem_typeName w.colon_not_mem_typeName h)

theorem compareDetail_injective {op op' : CompareOp} {text text' : Str}
    (h : compareDetail op text = compareDetail op' text') : op = op' ∧ text = text' := by
  have hcolon : ∀ op : CompareOp, (0x3A : UInt16) ∉ op.name := by
    intro op
    cases op <;> decide
  obtain ⟨hname, htext⟩ := Framing.cut_at_first (hcolon op) (hcolon op') h
  refine ⟨?_, htext⟩
  cases op <;> cases op' <;> first | rfl | exact absurd hname (by decide)

theorem colon_not_mem_decimal (n : Nat) : (0x3A : UInt16) ∉ decimal n := fun hmem =>
  absurd (Json.isDigit_decimal n _ hmem) (by decide)

/-- The type, the count and the hash of an array; where the hash tells the two texts apart, the set. -/
theorem valuesDetail_eq_iff {xs ys : LiteralArray}
    (hhash : fnv1a64 xs.joined = fnv1a64 ys.joined → xs.joined = ys.joined) :
    valuesDetail xs = valuesDetail ys ↔ SameSet xs ys := by
  rw [sameSet_iff]
  constructor
  · intro h
    obtain ⟨htype, hrest⟩ := Framing.cut_at_first xs.first.colon_not_mem_typeName ys.first.colon_not_mem_typeName h
    obtain ⟨hcount, hjoined⟩ := Framing.cut_at_first (colon_not_mem_decimal _) (colon_not_mem_decimal _) hrest
    exact ⟨htype, Json.decimal_injective hcount, hhash hjoined⟩
  · rintro ⟨htype, hcount, hjoined⟩
    rw [valuesDetail, valuesDetail, htype, hcount, hjoined]

/-- The text a class hashes into the rule type, in the two classes that do. -/
def hashedText (cls : AttrRuleClass) (config : Value) : Option Str :=
  let joinedOf className :=
    (requireHomogeneousLiteralArray className (config.field (js "values"))).toOption.map LiteralArray.joined
  match cls with
  | .literalIn => joinedOf (js "AttrLiteralIn")
  | .literalNotIn => joinedOf (js "AttrLiteralNotIn")
  | _ => none

/-- The hash does not collide on the texts of two configurations. -/
def NoCollision (cls cls' : AttrRuleClass) (config config' : Value) : Prop :=
  ∀ text ∈ hashedText cls config, ∀ text' ∈ hashedText cls' config', fnv1a64 text = fnv1a64 text' → text = text'

/-- Two rules of one class with one rule type give one answer. -/
theorem verify_eq_of_class {cls : AttrRuleClass} {config config' : Value} {rule rule' : AnyRule}
    (h : cls.new config = .ok rule) (h' : cls.new config' = .ok rule')
    (hgroup : config.field (js "group") = .undefined) (hgroup' : config'.field (js "group") = .undefined)
    (hhash : NoCollision cls cls config config') (heq : rule.ruleType = rule'.ruleType) (attrs : Attributes) :
    rule.verify attrs = rule'.verify attrs := by
  cases cls with
  | literalEqual =>
    obtain ⟨a, v, rfl⟩ := newLiteral_ok h hgroup
    obtain ⟨a', v', rfl⟩ := newLiteral_ok h' hgroup'
    rw [ruleType_literalEqual, ruleType_literalEqual] at heq
    obtain ⟨-, rfl, hdetail⟩ := derivedType_injective heq
    have hkey := literalDetail_injective hdetail
    simp only [attrLiteralEqual, attrRule, (LiteralValue.key_eq_iff.1 hkey).1, strictEquals_of_key hkey]
  | literalNotEqual =>
    obtain ⟨a, v, rfl⟩ := newLiteral_ok h hgroup
    obtain ⟨a', v', rfl⟩ := newLiteral_ok h' hgroup'
    rw [ruleType_literalNotEqual, ruleType_literalNotEqual] at heq
    obtain ⟨-, rfl, hdetail⟩ := derivedType_injective heq
    have hkey := literalDetail_injective hdetail
    simp only [attrLiteralNotEqual, attrRule, (LiteralValue.key_eq_iff.1 hkey).1, strictEquals_of_key hkey]
  | literalCompare =>
    obtain ⟨a, op, n, rfl⟩ := newLiteralCompare_ok h hgroup
    obtain ⟨a', op', n', rfl⟩ := newLiteralCompare_ok h' hgroup'
    rw [ruleType_literalCompare, ruleType_literalCompare] at heq
    obtain ⟨-, rfl, hdetail⟩ := derivedType_injective heq
    obtain ⟨rfl, htext⟩ := compareDetail_injective hdetail
    simp only [attrLiteralCompare, attrRule, applyCompare_of_text htext]
  | literalIn =>
    obtain ⟨a, xs, -, hxs, rfl⟩ := newValues_ok h hgroup
    obtain ⟨a', ys, -, hys, rfl⟩ := newValues_ok h' hgroup'
    rw [ruleType_literalIn, ruleType_literalIn] at heq
    obtain ⟨-, rfl, hdetail⟩ := derivedType_injective heq
    have hsame := (valuesDetail_eq_iff (hhash _ (by simp [hashedText, hxs, Except.toOption]) _
      (by simp [hashedText, hys, Except.toOption]))).1 hdetail
    simp only [attrLiteralIn, attrRule, (sameSet_iff.1 hsame).1, hsame.has_eq]
  | literalNotIn =>
    obtain ⟨a, xs, -, hxs, rfl⟩ := newValues_ok h hgroup
    obtain ⟨a', ys, -, hys, rfl⟩ := newValues_ok h' hgroup'
    rw [ruleType_literalNotIn, ruleType_literalNotIn] at heq
    obtain ⟨-, rfl, hdetail⟩ := derivedType_injective heq
    have hsame := (valuesDetail_eq_iff (hhash _ (by simp [hashedText, hxs, Except.toOption]) _
      (by simp [hashedText, hys, Except.toOption]))).1 hdetail
    simp only [attrLiteralNotIn, attrRule, (sameSet_iff.1 hsame).1, hsame.has_eq]
  | pairEqual =>
    obtain ⟨a, b, rfl⟩ := newPair_ok h hgroup
    obtain ⟨a', b', rfl⟩ := newPair_ok h' hgroup'
    rw [ruleType_pairEqual, ruleType_pairEqual] at heq
    obtain ⟨-, rfl, hdetail⟩ := derivedType_injective heq
    rw [AttrName.eq_of_text hdetail]
  | pairNotEqual =>
    obtain ⟨a, b, rfl⟩ := newPair_ok h hgroup
    obtain ⟨a', b', rfl⟩ := newPair_ok h' hgroup'
    rw [ruleType_pairNotEqual, ruleType_pairNotEqual] at heq
    obtain ⟨-, rfl, hdetail⟩ := derivedType_injective heq
    rw [AttrName.eq_of_text hdetail]
  | pairCompare =>
    obtain ⟨a, op, b, rfl⟩ := newPairCompare_ok h hgroup
    obtain ⟨a', op', b', rfl⟩ := newPairCompare_ok h' hgroup'
    rw [ruleType_pairCompare, ruleType_pairCompare] at heq
    obtain ⟨-, rfl, hdetail⟩ := derivedType_injective heq
    obtain ⟨rfl, htext⟩ := compareDetail_injective hdetail
    rw [AttrName.eq_of_text htext]
  | matchRule =>
    obtain ⟨a, b, rfl⟩ := newPair_ok h hgroup
    obtain ⟨a', b', rfl⟩ := newPair_ok h' hgroup'
    rw [ruleType_match, ruleType_match] at heq
    obtain ⟨-, rfl, hdetail⟩ := derivedType_injective heq
    rw [AttrName.eq_of_text hdetail]

/-- A class that looks a literal up in a set, by the name its checks refuse with. -/
inductive Looks : AttrRuleClass → Str → Prop where
  | isIn : Looks .literalIn (js "AttrLiteralIn")
  | notIn : Looks .literalNotIn (js "AttrLiteralNotIn")

/-- What the rule types of the attribute rules keep apart, and what they keep together. -/
structure RuleTypesTell : Prop where
  /-- Rules built without a group share a rule type only within a class, and where they give one answer. -/
  apart : ∀ cls cls' config config' rule rule', AttrRuleClass.new cls config = .ok rule →
    AttrRuleClass.new cls' config' = .ok rule' → config.field (js "group") = .undefined →
    config'.field (js "group") = .undefined → NoCollision cls cls' config config' →
    rule.ruleType = rule'.ruleType → cls = cls' ∧ ∀ attrs, rule.verify attrs = rule'.verify attrs
  /-- Two rules over one set of literals share theirs. -/
  together : ∀ cls className config config' rule rule' xs ys, Looks cls className →
    AttrRuleClass.new cls config = .ok rule → AttrRuleClass.new cls config' = .ok rule' →
    config.field (js "group") = .undefined → config'.field (js "group") = .undefined →
    config.field (js "a") = config'.field (js "a") →
    requireHomogeneousLiteralArray className (config.field (js "values")) = .ok xs →
    requireHomogeneousLiteralArray className (config'.field (js "values")) = .ok ys → SameSet xs ys →
    rule.ruleType = rule'.ruleType
  /-- Before hashing, two arrays are told apart exactly when they hold different sets. -/
  unhashed : ∀ xs ys : LiteralArray, (xs.elementType = ys.elementType ∧
    xs.unique.length = ys.unique.length ∧ xs.joined = ys.joined) ↔ SameSet xs ys

theorem ruleTypes_tell : RuleTypesTell := by
  refine ⟨?_, ?_, fun xs ys => sameSet_iff.symm⟩
  · intro cls cls' config config' rule rule' h h' hgroup hgroup' hhash heq
    obtain ⟨a, detail, hderived⟩ := ruleType_derived h hgroup
    obtain ⟨a', detail', hderived'⟩ := ruleType_derived h' hgroup'
    obtain ⟨rfl, -, -⟩ := derivedType_injective (hderived.symm.trans (heq.trans hderived'))
    exact ⟨rfl, verify_eq_of_class h h' hgroup hgroup' hhash heq⟩
  · intro cls className config config' rule rule' xs ys hlooks h h' hgroup hgroup' ha hxs hys hsame
    have hdetail : valuesDetail xs = valuesDetail ys :=
      (valuesDetail_eq_iff fun _ => (sameSet_iff.1 hsame).2.2).2 hsame
    cases hlooks with
    | isIn =>
      obtain ⟨a, rfl, rfl⟩ := newValues_both h h' hgroup hgroup' ha hxs hys
      rw [ruleType_literalIn, ruleType_literalIn, hdetail]
    | notIn =>
      obtain ⟨a, rfl, rfl⟩ := newValues_both h h' hgroup hgroup' ha hxs hys
      rw [ruleType_literalNotIn, ruleType_literalNotIn, hdetail]

end PolicyVerifier.Builtins
