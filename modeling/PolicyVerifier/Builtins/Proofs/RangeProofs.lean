import PolicyVerifier.Builtins.DelegationRange
import PolicyVerifier.Js.Strings

/-!
# The grammar of a delegation range

What the parser accepts is exactly what the grammar `(type(:id)?.)*action` writes, and one path contains
another when its elements cover the first of the other's. No action can be read as more segments of the
resource it is joined to.
-/

namespace PolicyVerifier.Builtins

open Js PolicyVerifier.Core

/-! ## The grammar -/

/-- An element as a path spells it. -/
def RangeElement.write (element : RangeElement) : Str :=
  match element.id with
  | none => element.type
  | some id => element.type ++ js ":" ++ id

/-- A path as it is spelt. -/
def writePath (elements : List RangeElement) : Str := join (js ".") (elements.map RangeElement.write)

/-- `(type(:id)?.)*action`. -/
inductive InGrammar : List RangeElement → Prop where
  | action (action : Str) (name : isName action = true) : InGrammar [{ type := action }]
  | element (element : RangeElement) (elements : List RangeElement) (name : isName element.type = true)
      (id : ∀ id, element.id = some id → isId id = true) (rest : InGrammar elements) :
      InGrammar (element :: elements)

/-- The element is of the other's type, and names no id or the other's. -/
def RangeElement.Covers (element other : RangeElement) : Prop :=
  element.type = other.type ∧ (element.id = none ∨ element.id = other.id)

/-- The elements cover the first ones of the others. -/
def Contains (within requested : List RangeElement) : Prop :=
  ∃ covered rest, requested = covered ++ rest ∧ List.Forall₂ RangeElement.Covers within covered

/-! ## What a name and an id hold -/

theorem not_mem_name {name : Str} (h : isName name = true) {c : UInt16} (hc : isNamePart c = false) :
    c ∉ name := by
  intro hmem
  cases name with
  | nil => exact absurd hmem (by simp)
  | cons d name =>
    simp only [isName, Bool.and_eq_true, List.all_eq_true] at h
    rcases List.mem_cons.1 hmem with rfl | hmem
    · have hpart : isNamePart c = true := by rw [isNamePart, h.1]; rfl
      exact absurd hpart (by simp [hc])
    · exact absurd (h.2 c hmem) (by simp [hc])

theorem isIdRest_part {id : Str} (h : isIdRest id = true) {c : UInt16} (hc : c ∈ id) :
    c = 0x25 ∨ isUnreserved c = true ∨ isUpperHex c = true := by
  fun_induction isIdRest id with
  | case1 => exact absurd hc (by simp)
  | case2 a b rest ih =>
    simp only [Bool.and_eq_true] at h
    rcases List.mem_cons.1 hc with rfl | hc
    · exact Or.inl rfl
    rcases List.mem_cons.1 hc with rfl | hc
    · exact Or.inr (Or.inr h.1.1)
    rcases List.mem_cons.1 hc with rfl | hc
    · exact Or.inr (Or.inr h.1.2)
    · exact ih h.2 hc
  | case3 => exact absurd h (by simp)
  | case4 d cs hd ih =>
    simp only [Bool.and_eq_true] at h
    rcases List.mem_cons.1 hc with rfl | hc
    · exact Or.inr (Or.inl h.1)
    · exact ih h.2 hc

theorem not_mem_id {id : Str} (h : isId id = true) {c : UInt16}
    (hc : ¬ (c = 0x25 ∨ isUnreserved c = true ∨ isUpperHex c = true)) : c ∉ id := by
  simp only [isId, Bool.and_eq_true] at h
  exact fun hmem => hc (isIdRest_part h.2 hmem)

/-- No dot stands in an element as it is spelt. -/
theorem dot_not_mem_write {element : RangeElement} (hname : isName element.type = true)
    (hid : ∀ id, element.id = some id → isId id = true) : (0x2E : UInt16) ∉ element.write := by
  have htype : (0x2E : UInt16) ∉ element.type := not_mem_name hname (by decide)
  unfold RangeElement.write
  cases h : element.id with
  | none => exact htype
  | some id =>
    have hidDot : (0x2E : UInt16) ∉ id := not_mem_id (hid id h) (by decide)
    have hcolon : (0x2E : UInt16) ∉ js ":" := by decide
    simp [htype, hidDot, hcolon]

/-! ## One element -/

theorem parseElement_write {element : RangeElement} {last : Bool} (hname : isName element.type = true)
    (hid : ∀ id, element.id = some id → last = false ∧ isId id = true) :
    parseElement last element.write = some element := by
  obtain ⟨type, id⟩ := element
  have htype : (0x3A : UInt16) ∉ type := not_mem_name hname (by decide)
  cases id with
  | none =>
    have hsplit : type.splitOn 0x3A = [type] := List.splitOn_eq_singleton htype
    simp only [parseElement, RangeElement.write, hsplit]
    rw [if_pos hname]
  | some id =>
    obtain ⟨hlast, hid⟩ := hid id rfl
    have hcolon : (0x3A : UInt16) ∉ id := not_mem_id hid (by decide)
    have hsplit : (type ++ js ":" ++ id).splitOn 0x3A = [type, id] := by
      rw [List.append_assoc]
      exact splitOn_pair htype hcolon
    simp only [parseElement, RangeElement.write, hsplit]
    rw [if_pos hname, if_neg (by simp [hlast, hid])]

theorem parseElement_eq_some {element : RangeElement} {last : Bool} {part : Str}
    (h : parseElement last part = some element) : isName element.type = true ∧
      (∀ id, element.id = some id → last = false ∧ isId id = true) ∧ element.write = part := by
  unfold parseElement at h
  have hjoin : [(0x3A : UInt16)].intercalate (part.splitOn 0x3A) = part := List.intercalate_splitOn 0x3A
  split at h
  · rename_i type hsplit
    rw [hsplit] at hjoin
    split at h
    · rename_i hname
      obtain rfl := Option.some.inj h
      exact ⟨hname, fun id hid => absurd hid (by simp), by simpa [RangeElement.write] using hjoin⟩
    · exact absurd h (by simp)
  · rename_i type id hsplit
    rw [hsplit] at hjoin
    split at h
    · rename_i hname
      split at h
      · exact absurd h (by simp)
      · rename_i hid
        obtain rfl := Option.some.inj h
        simp only [Bool.or_eq_true, Bool.not_eq_true', not_or, Bool.not_eq_true,
          Bool.not_eq_false] at hid
        refine ⟨hname, fun id' hid' => ?_, ?_⟩
        · obtain rfl := Option.some.inj hid'
          exact hid
        · rw [← hjoin]
          simp [RangeElement.write, List.intercalate_cons_cons, js, units]
    · exact absurd h (by simp)
  · exact absurd h (by simp)

/-! ## A path -/

theorem InGrammar.ne_nil {elements : List RangeElement} (h : InGrammar elements) : elements ≠ [] := by
  cases h <;> simp

theorem InGrammar.dot_not_mem {elements : List RangeElement} (h : InGrammar elements) :
    ∀ part ∈ elements.map RangeElement.write, (0x2E : UInt16) ∉ part := by
  induction h with
  | action action name =>
    intro part hpart
    have hnone : ∀ id, ({ type := action } : RangeElement).id = some id → isId id = true :=
      fun id hid => absurd hid (by simp)
    rw [List.mem_singleton.1 hpart]
    exact dot_not_mem_write name hnone
  | element element elements name id rest ih =>
    intro part hpart
    rcases List.mem_cons.1 hpart with rfl | hpart
    · exact dot_not_mem_write name id
    · exact ih part hpart

/-- A path ends with an action. -/
theorem InGrammar.ends {elements : List RangeElement} (h : InGrammar elements) :
    ∃ segments action, elements = segments ++ [{ type := action }] := by
  induction h with
  | action action name => exact ⟨[], action, rfl⟩
  | element element elements name id rest ih =>
    obtain ⟨segments, action, rfl⟩ := ih
    exact ⟨element :: segments, action, rfl⟩

theorem InGrammar.name_of_last {segments : List RangeElement} {last : RangeElement}
    (h : InGrammar (segments ++ [last])) : isName last.type = true := by
  induction segments with
  | nil =>
    cases h with
    | action action name => exact name
    | element _ _ name => exact name
  | cons element segments ih =>
    cases hs : segments ++ [last] with
    | nil => exact absurd hs (by simp)
    | cons next rest =>
      rw [List.cons_append, hs] at h
      cases h with
      | element _ _ name id hrest => exact ih (hs ▸ hrest)

theorem parseParts_write {elements : List RangeElement} (h : InGrammar elements) :
    parseParts (elements.map RangeElement.write) = some elements := by
  induction h with
  | action action name =>
    have hone : parseElement true (RangeElement.write { type := action }) = some { type := action } :=
      parseElement_write name fun id hid => absurd hid (by simp)
    simp only [List.map_cons, List.map_nil, parseParts, List.isEmpty_nil, hone]
    rfl
  | element element elements name id rest ih =>
    have hmore : (elements.map RangeElement.write).isEmpty = false := by
      simp [rest.ne_nil]
    have hone : parseElement false element.write = some element :=
      parseElement_write name fun i hi => ⟨rfl, id i hi⟩
    simp only [List.map_cons, parseParts, hmore, hone, ih]
    rfl

theorem parseParts_eq_some {parts : List Str} {elements : List RangeElement} (hparts : parts ≠ [])
    (h : parseParts parts = some elements) :
    InGrammar elements ∧ elements.map RangeElement.write = parts := by
  induction parts generalizing elements with
  | nil => exact absurd rfl hparts
  | cons part parts ih =>
    rw [parseParts] at h
    split at h
    · exact absurd h (by simp)
    · rename_i element helement
      obtain ⟨rest, hrest, rfl⟩ := Option.map_eq_some_iff.1 h
      obtain ⟨hname, hid, hwrite⟩ := parseElement_eq_some helement
      cases parts with
      | nil =>
        obtain rfl := Option.some.inj hrest
        have hnone : element.id = none := by
          cases hi : element.id with
          | none => rfl
          | some id => exact absurd (hid id hi).1 (by simp)
        obtain ⟨type, id⟩ := element
        obtain rfl : id = none := hnone
        exact ⟨.action type hname, by rw [List.map_cons, hwrite, List.map_nil]⟩
      | cons next parts =>
        obtain ⟨hgrammar, hwrites⟩ := ih (by simp) hrest
        exact ⟨.element element rest hname (fun id hi => (hid id hi).2) hgrammar,
          by rw [List.map_cons, hwrite, hwrites]⟩

/-- The parser reads exactly what the grammar writes. -/
theorem parseRangePath_iff {path : Str} {elements : List RangeElement} :
    parseRangePath path = some elements ↔ InGrammar elements ∧ path = writePath elements := by
  have hdot : js "." = [(0x2E : UInt16)] := rfl
  constructor
  · intro h
    rw [parseRangePath] at h
    split at h
    · exact absurd h (by simp)
    · obtain ⟨hgrammar, hwrites⟩ := parseParts_eq_some (List.splitOn_ne_nil 0x2E path) h
      refine ⟨hgrammar, ?_⟩
      rw [writePath, hwrites, join, hdot, List.intercalate_splitOn]
  · rintro ⟨hgrammar, rfl⟩
    have hsplit : (writePath elements).splitOn 0x2E = elements.map RangeElement.write := by
      rw [writePath, join, hdot]
      exact List.splitOn_intercalate 0x2E hgrammar.dot_not_mem (by simpa using hgrammar.ne_nil)
    have hsome : writePath elements ≠ [] := by
      intro hnil
      have hparts := parseParts_write hgrammar
      rw [← hsplit, hnil, List.splitOn_nil] at hparts
      exact absurd hparts (by simp [parseParts, parseElement, isName])
    rw [parseRangePath, if_neg hsome, hsplit]
    exact parseParts_write hgrammar

/-! ## Containment -/

theorem Contains.nil (requested : List RangeElement) : Contains [] requested := ⟨[], requested, rfl, .nil⟩

theorem not_contains_nil {element : RangeElement} {within : List RangeElement} :
    ¬ Contains (element :: within) [] := by
  rintro ⟨covered, rest, hsplit, hcovers⟩
  cases hcovers
  exact absurd hsplit (by simp)

theorem contains_cons {element request : RangeElement} {within requested : List RangeElement} :
    Contains (element :: within) (request :: requested) ↔
      element.Covers request ∧ Contains within requested := by
  constructor
  · rintro ⟨covered, rest, hsplit, hcovers⟩
    cases hcovers with
    | cons hfirst hothers =>
      obtain ⟨rfl, rfl⟩ := List.cons.inj hsplit
      exact ⟨hfirst, _, rest, rfl, hothers⟩
  · rintro ⟨hfirst, covered, rest, rfl, hothers⟩
    exact ⟨request :: covered, rest, rfl, .cons hfirst hothers⟩

theorem contains_iff (within requested : List RangeElement) : Contains within requested ↔
    ¬ requested.length < within.length ∧ ((within.zip requested).all fun (element, request) =>
      element.type == request.type && (element.id == none || element.id == request.id)) = true := by
  induction within generalizing requested with
  | nil => exact iff_of_true (.nil requested) ⟨by simp, rfl⟩
  | cons element within ih =>
    cases requested with
    | nil => exact iff_of_false not_contains_nil (fun h => h.1 (by simp))
    | cons request requested =>
      rw [contains_cons, ih, RangeElement.Covers]
      simp only [List.length_cons, Nat.add_lt_add_iff_right, List.zip_cons_cons, List.all_cons,
        Bool.and_eq_true, Bool.or_eq_true, beq_iff_eq]
      exact and_left_comm

/-- An entry contains a path when both are in the grammar and the entry's elements cover the path's. -/
theorem rangeContains_iff {entry path : Str} : rangeContains entry path = true ↔
    ∃ within requested, parseRangePath entry = some within ∧ parseRangePath path = some requested ∧
      Contains within requested := by
  unfold rangeContains
  split
  · rename_i within requested hwithin hrequested
    have hcontains := contains_iff within requested
    constructor
    · intro h
      refine ⟨within, requested, hwithin, hrequested, hcontains.2 ?_⟩
      split at h
      · exact absurd h (by simp)
      · rename_i hlength
        exact ⟨hlength, h⟩
    · rintro ⟨w, r, hw, hr, h⟩
      obtain rfl := Option.some.inj (hwithin.symm.trans hw)
      obtain rfl := Option.some.inj (hrequested.symm.trans hr)
      obtain ⟨hlength, hall⟩ := hcontains.1 h
      rw [if_neg hlength]
      exact hall
  · rename_i hnone
    refine iff_of_false (by simp) ?_
    rintro ⟨within, requested, hwithin, hrequested, -⟩
    exact hnone within requested hwithin hrequested

/-! ## The requested path -/

/-- The elements of a request: those its resource's segments spell, and its action, all in the
grammar. -/
def Requested (resource action : Str) (elements : List RangeElement) : Prop :=
  InGrammar elements ∧ ∃ segments, elements = segments ++ [{ type := action }] ∧
    segments.map RangeElement.write = resource.splitOn 0x2E

theorem requestedRangePath_eq_some {resource action path : Str}
    (h : requestedRangePath resource action = some path) :
    isName action = true ∧ path = resource ++ js "." ++ action ∧
      path.splitOn 0x2E = resource.splitOn 0x2E ++ [action] := by
  rw [requestedRangePath] at h
  split at h
  · rename_i hname
    obtain rfl := Option.some.inj h
    have hdot : (0x2E : UInt16) ∉ action := not_mem_name hname (by decide)
    refine ⟨hname, rfl, ?_⟩
    rw [List.append_assoc, show js "." ++ action = 0x2E :: action from rfl,
      List.splitOn_append_cons_self, List.splitOn_eq_singleton hdot]
  · exact absurd h (by simp)

/-- The action of a requested path is its last element, whatever it is joined to. -/
theorem requestedRangePath_elements {resource action path : Str}
    (h : requestedRangePath resource action = some path) {elements : List RangeElement} :
    parseRangePath path = some elements ↔ Requested resource action elements := by
  obtain ⟨hname, hpath, hsplit⟩ := requestedRangePath_eq_some h
  have hdot : js "." = [(0x2E : UInt16)] := rfl
  have haction : RangeElement.write { type := action } = action := rfl
  rw [parseRangePath_iff]
  constructor
  · rintro ⟨hgrammar, hwrite⟩
    obtain ⟨segments, last, rfl⟩ := hgrammar.ends
    have hparts : segments.map RangeElement.write ++ [last] = resource.splitOn 0x2E ++ [action] := by
      have hall := List.splitOn_intercalate 0x2E hgrammar.dot_not_mem (by simp)
      rw [← hdot, ← join, ← writePath, ← hwrite, hsplit, List.map_append] at hall
      exact hall.symm
    obtain ⟨hsegments, hlast⟩ := List.append_inj' hparts rfl
    obtain rfl := List.singleton_inj.1 hlast
    exact ⟨hgrammar, segments, rfl, hsegments⟩
  · rintro ⟨hgrammar, segments, rfl, hsegments⟩
    refine ⟨hgrammar, ?_⟩
    rw [writePath, join, List.map_append, hsegments, List.map_cons, List.map_nil, haction, hdot,
      ← hsplit, List.intercalate_splitOn]

/-! ## The paths as an order -/

/-- The strings of `(type(:id)?.)*action`. -/
inductive RangePath : Str → Prop where
  | action {action : Str} (name : isName action = true) : RangePath action
  | typed {type rest : Str} (name : isName type = true) : RangePath rest →
      RangePath (type ++ js "." ++ rest)
  | identified {type id rest : Str} (name : isName type = true) (named : isId id = true) :
      RangePath rest → RangePath (type ++ js ":" ++ id ++ js "." ++ rest)

theorem writePath_cons (element : RangeElement) {elements : List RangeElement} (h : elements ≠ []) :
    writePath (element :: elements) = element.write ++ js "." ++ writePath elements := by
  have hmap : elements.map RangeElement.write ≠ [] := by simpa using h
  rw [writePath, writePath, join, join, List.map_cons, List.intercalate_cons_of_ne_nil hmap]

/-- The strings of the grammar are those its elements spell. -/
theorem rangePath_iff {path : Str} :
    RangePath path ↔ ∃ elements, InGrammar elements ∧ path = writePath elements := by
  constructor
  · intro h
    induction h with
    | @action action name =>
      exact ⟨[{ type := action }], .action action name, by simp [writePath, join, RangeElement.write]⟩
    | @typed type rest name _ ih =>
      obtain ⟨elements, hgrammar, rfl⟩ := ih
      exact ⟨{ type } :: elements, .element { type } elements name (by simp) hgrammar,
        (writePath_cons { type } hgrammar.ne_nil).symm⟩
    | @identified type id rest name named _ ih =>
      obtain ⟨elements, hgrammar, rfl⟩ := ih
      exact ⟨{ type, id := some id } :: elements,
        .element { type, id := some id } elements name (by simpa using named) hgrammar,
        (writePath_cons { type, id := some id } hgrammar.ne_nil).symm⟩
  · rintro ⟨elements, hgrammar, rfl⟩
    induction hgrammar with
    | action action name => exact (by simpa [writePath, join, RangeElement.write] using RangePath.action name)
    | element element elements name id rest ih =>
      rw [writePath_cons element rest.ne_nil]
      cases hid : element.id with
      | none =>
        rw [RangeElement.write, hid]
        exact .typed name ih
      | some i =>
        rw [RangeElement.write, hid]
        exact .identified name (id i hid) ih

theorem Contains.refl (elements : List RangeElement) : Contains elements elements := by
  induction elements with
  | nil => exact .nil []
  | cons element elements ih => exact contains_cons.2 ⟨⟨rfl, Or.inr rfl⟩, ih⟩

theorem RangeElement.Covers.trans {a b c : RangeElement} (hab : a.Covers b) (hbc : b.Covers c) :
    a.Covers c := by
  refine ⟨hab.1.trans hbc.1, ?_⟩
  rcases hab.2 with hnone | hsame
  · exact Or.inl hnone
  · rw [hsame]
    exact hbc.2

theorem RangeElement.Covers.antisymm {a b : RangeElement} (hab : a.Covers b) (hba : b.Covers a) :
    a = b := by
  obtain ⟨type, id⟩ := a
  obtain ⟨type', id'⟩ := b
  obtain ⟨rfl, hid⟩ := hab
  rcases hid with hnone | hsame
  · rcases hba.2 with hnone' | hsame
    · exact congrArg _ (hnone.trans hnone'.symm)
    · exact congrArg _ hsame.symm
  · exact congrArg _ hsame

theorem Contains.antisymm {within requested : List RangeElement} (h : Contains within requested)
    (h' : Contains requested within) : within = requested := by
  induction within generalizing requested with
  | nil =>
    cases requested with
    | nil => rfl
    | cons request requested => exact absurd h' not_contains_nil
  | cons element within ih =>
    cases requested with
    | nil => exact absurd h not_contains_nil
    | cons request requested =>
      obtain ⟨hfirst, hrest⟩ := contains_cons.1 h
      obtain ⟨hfirst', hrest'⟩ := contains_cons.1 h'
      rw [hfirst.antisymm hfirst', ih hrest hrest']

theorem Contains.trans {a b c : List RangeElement} (hab : Contains a b) (hbc : Contains b c) :
    Contains a c := by
  induction a generalizing b c with
  | nil => exact .nil c
  | cons x a ih =>
    cases b with
    | nil => exact absurd hab not_contains_nil
    | cons y b =>
      cases c with
      | nil => exact absurd hbc not_contains_nil
      | cons z c =>
        obtain ⟨hxy, hab⟩ := contains_cons.1 hab
        obtain ⟨hyz, hbc⟩ := contains_cons.1 hbc
        exact contains_cons.2 ⟨hxy.trans hyz, ih hab hbc⟩

/-- The strings of the grammar under containment. -/
structure RangeOrder : Prop where
  accepts : ∀ path, (∃ elements, parseRangePath path = some elements) ↔ RangePath path
  renders : ∀ path elements, parseRangePath path = some elements → writePath elements = path
  injective : ∀ p q elements, parseRangePath p = some elements → parseRangePath q = some elements → p = q
  contains : ∀ entry path, rangeContains entry path = true ↔ ∃ within requested,
    parseRangePath entry = some within ∧ parseRangePath path = some requested ∧
      ∃ covered rest, requested = covered ++ rest ∧ List.Forall₂ RangeElement.Covers within covered
  outside : ∀ entry path, ¬ (RangePath entry ∧ RangePath path) → rangeContains entry path = false
  refl : ∀ p, RangePath p → rangeContains p p = true
  antisymm : ∀ p q, rangeContains p q = true → rangeContains q p = true → p = q
  trans : ∀ p q r, rangeContains p q = true → rangeContains q r = true → rangeContains p r = true

/-- The parser reads the grammar and nothing else, and containment is a partial order on it. -/
theorem rangeContains_order : RangeOrder := by
  have haccepts : ∀ path, (∃ elements, parseRangePath path = some elements) ↔ RangePath path := by
    intro path
    rw [rangePath_iff]
    exact exists_congr fun elements => parseRangePath_iff
  have hrenders : ∀ path elements, parseRangePath path = some elements → writePath elements = path :=
    fun path elements h => (parseRangePath_iff.1 h).2.symm
  refine ⟨haccepts, hrenders, fun p q elements hp hq => ?_, fun _ _ => rangeContains_iff,
    fun entry path h => ?_, fun p hp => ?_, fun p q hpq hqp => ?_, fun p q r hpq hqr => ?_⟩
  · exact (hrenders p elements hp).symm.trans (hrenders q elements hq)
  · rw [Bool.eq_false_iff]
    intro hcontains
    obtain ⟨within, requested, hwithin, hrequested, -⟩ := rangeContains_iff.1 hcontains
    exact h ⟨(haccepts entry).1 ⟨within, hwithin⟩, (haccepts path).1 ⟨requested, hrequested⟩⟩
  · obtain ⟨elements, helements⟩ := (haccepts p).2 hp
    exact rangeContains_iff.2 ⟨elements, elements, helements, helements, .refl elements⟩
  · obtain ⟨ps, qs, hp, hq, hcontains⟩ := rangeContains_iff.1 hpq
    obtain ⟨qs', ps', hq', hp', hcontains'⟩ := rangeContains_iff.1 hqp
    obtain rfl := Option.some.inj (hp.symm.trans hp')
    obtain rfl := Option.some.inj (hq.symm.trans hq')
    rw [← hrenders p _ hp, ← hrenders q _ hq, hcontains.antisymm hcontains']
  · obtain ⟨ps, qs, hp, hq, hcontains⟩ := rangeContains_iff.1 hpq
    obtain ⟨qs', rs, hq', hr, hcontains'⟩ := rangeContains_iff.1 hqr
    obtain rfl := Option.some.inj (hq.symm.trans hq')
    exact rangeContains_iff.2 ⟨ps, rs, hp, hr, hcontains.trans hcontains'⟩

end PolicyVerifier.Builtins
