import PolicyVerifier.Builtins.DotNotation
import PolicyVerifier.Builtins.ResourceActionRules
import PolicyVerifier.Lib.ExceptFold
import PolicyVerifier.Lib.Framing

/-!
# The grammar of a resource

The parser accepts exactly what the grammar derives, and what it reads is written back as it was. Neither a
type nor the scope a request requires can be read as another.
-/

namespace PolicyVerifier.Builtins

open Js PolicyVerifier.Core

/-! ## The grammar -/

/-- `tchar`. -/
def TChar (c : UInt16) : Prop :=
  c = 0x21 ∨ (0x23 ≤ c ∧ c ≤ 0x2D) ∨ (0x2F ≤ c ∧ c ≤ 0x39) ∨ (0x3B ≤ c ∧ c ≤ 0x5B) ∨ (0x5D ≤ c ∧ c ≤ 0x7E)

/-- `type` and `id`: one `tchar` or more. -/
structure Token (text : Str) : Prop where
  nonempty : text ≠ []
  chars : ∀ c ∈ text, TChar c

/-- A segment as a resource spells it. -/
def Segment.write (segment : Segment) : Str :=
  match segment.id with
  | none => segment.type
  | some id => segment.type ++ js ":" ++ id

/-- `segment = type [ ":" id ]`. -/
structure Segment.WellFormed (segment : Segment) : Prop where
  type : Token segment.type
  id : ∀ id, segment.id = some id → Token id

/-- `resource = segment *( "." segment )`: what the segments are derived to. -/
inductive Derives : List Segment → Str → Prop where
  | segment (segment : Segment) (wellFormed : segment.WellFormed) : Derives [segment] segment.write
  | dotted (segment : Segment) (segments : List Segment) (text : Str) (wellFormed : segment.WellFormed)
      (rest : Derives segments text) : Derives (segment :: segments) (segment.write ++ js "." ++ text)

/-! ## Tokens -/

theorem segmentToken_iff {value : Str} : segmentToken value = true ↔ Token value := by
  have hchar : ∀ c, isSegmentChar c = true ↔ TChar c := by
    intro c
    simp only [isSegmentChar, TChar, Bool.or_eq_true, Bool.and_eq_true, beq_iff_eq, decide_eq_true_eq,
      or_assoc]
  rw [segmentToken, Bool.and_eq_true, List.all_eq_true]
  constructor
  · rintro ⟨hne, hall⟩
    exact ⟨by simpa using hne, fun c hc => (hchar c).1 (hall c hc)⟩
  · rintro ⟨hne, hall⟩
    exact ⟨by simpa using hne, fun c hc => (hchar c).2 (hall c hc)⟩

theorem assertToken_ok_iff {raw value : Str} {position : Nat} {part : SegmentPart} {u : Unit} :
    assertToken raw value position part = .ok u ↔ Token value := by
  rw [← segmentToken_iff, assertToken]
  split
  · rename_i hempty
    subst hempty
    exact iff_of_false (by simp) (by simp [segmentToken])
  · split
    · rename_i hnot
      exact iff_of_false (by simp) (by simpa using hnot)
    · rename_i hnot
      exact iff_of_true rfl (by simpa using hnot)

theorem Token.dot_not_mem {text : Str} (h : Token text) : (0x2E : UInt16) ∉ text :=
  fun hmem => absurd (h.chars _ hmem) (by unfold TChar; decide)

theorem Token.colon_not_mem {text : Str} (h : Token text) : (0x3A : UInt16) ∉ text :=
  fun hmem => absurd (h.chars _ hmem) (by unfold TChar; decide)

/-! ## One segment -/

theorem Segment.WellFormed.dot_not_mem {segment : Segment} (h : segment.WellFormed) :
    (0x2E : UInt16) ∉ segment.write := by
  have htype := h.type.dot_not_mem
  unfold Segment.write
  cases hid : segment.id with
  | none => exact htype
  | some id =>
    have hiddot := (h.id id hid).dot_not_mem
    have hcolon : (0x2E : UInt16) ∉ js ":" := by decide
    simp [htype, hiddot, hcolon]

theorem Segment.WellFormed.write_split {segment : Segment} (h : segment.WellFormed) :
    segment.write.splitOn 0x3A =
      match segment.id with
      | none => [segment.type]
      | some id => [segment.type, id] := by
  unfold Segment.write
  cases hid : segment.id with
  | none => exact List.splitOn_eq_singleton h.type.colon_not_mem
  | some id =>
    show (segment.type ++ js ":" ++ id).splitOn 0x3A = [segment.type, id]
    rw [List.append_assoc]
    exact splitOn_pair h.type.colon_not_mem (h.id id hid).colon_not_mem

/-- One segment is accepted exactly when it is well formed, and it is read as it was written. -/
theorem parseSegment_ok_iff {raw part : Str} {position : Nat} {segment : Segment} :
    parseSegment raw part position = .ok segment ↔ segment.WellFormed ∧ segment.write = part := by
  have hjoin : [(0x3A : UInt16)].intercalate (part.splitOn 0x3A) = part := List.intercalate_splitOn 0x3A
  constructor
  · intro h
    unfold parseSegment at h
    split at h
    · rename_i type hsplit
      obtain ⟨_, htype, h⟩ := ExceptFold.bind_eq_ok h
      obtain rfl := Except.ok.inj h
      rw [hsplit] at hjoin
      exact ⟨⟨assertToken_ok_iff.1 htype, fun id hid => absurd hid (by simp)⟩,
        by simpa [Segment.write] using hjoin⟩
    · rename_i type id hsplit
      obtain ⟨_, htype, h⟩ := ExceptFold.bind_eq_ok h
      obtain ⟨_, hid, h⟩ := ExceptFold.bind_eq_ok h
      obtain rfl := Except.ok.inj h
      refine ⟨⟨assertToken_ok_iff.1 htype, fun id' hid' => ?_⟩, ?_⟩
      · obtain rfl := Option.some.inj hid'
        exact assertToken_ok_iff.1 hid
      · rw [← hjoin, hsplit]
        simp [Segment.write, List.intercalate_cons_cons, js, units]
    · exact absurd h (by simp)
  · rintro ⟨hwell, rfl⟩
    have htype : ∀ position, assertToken raw segment.type position .type = .ok () :=
      fun _ => assertToken_ok_iff.2 hwell.type
    rw [parseSegment, hwell.write_split]
    obtain ⟨type, id⟩ := segment
    cases id with
    | none =>
      simp only [htype]
      rfl
    | some id =>
      have hid : ∀ position, assertToken raw id position .id = .ok () :=
        fun _ => assertToken_ok_iff.2 (hwell.id id rfl)
      simp only [htype, hid]
      rfl

/-! ## A resource -/

theorem parseSegments_ok_iff {raw : Str} {index : Nat} {parts : List Str} {segments : List Segment} :
    parseSegments raw index parts = .ok segments ↔
      (∀ segment ∈ segments, segment.WellFormed) ∧ segments.map Segment.write = parts := by
  induction parts generalizing index segments with
  | nil =>
    rw [parseSegments, Except.ok.injEq, List.map_eq_nil_iff, eq_comm]
    exact ⟨fun h => ⟨by simp [h], h⟩, fun h => h.2⟩
  | cons part parts ih =>
    rw [parseSegments]
    constructor
    · intro h
      obtain ⟨first, hfirst, h⟩ := ExceptFold.bind_eq_ok h
      obtain ⟨rest, hrest, h⟩ := ExceptFold.bind_eq_ok h
      obtain rfl := Except.ok.inj h
      obtain ⟨hwell, hwrite⟩ := parseSegment_ok_iff.1 hfirst
      obtain ⟨hwells, hwrites⟩ := ih.1 hrest
      exact ⟨List.forall_mem_cons.2 ⟨hwell, hwells⟩, by rw [List.map_cons, hwrite, hwrites]⟩
    · rintro ⟨hwells, hwrites⟩
      cases segments with
      | nil => exact absurd hwrites (by simp)
      | cons segment segments =>
        obtain ⟨hwell, hwells⟩ := List.forall_mem_cons.1 hwells
        obtain ⟨hwrite, hwrites⟩ := List.cons.inj hwrites
        rw [parseSegment_ok_iff.2 ⟨hwell, hwrite⟩]
        show (parseSegments raw (index + 1) parts >>= fun rest => .ok (segment :: rest)) = _
        rw [ih.2 ⟨hwells, hwrites⟩]
        rfl

theorem derives_iff {segments : List Segment} {raw : Str} :
    Derives segments raw ↔ segments ≠ [] ∧ (∀ segment ∈ segments, segment.WellFormed) ∧
      join (js ".") (segments.map Segment.write) = raw := by
  constructor
  · intro h
    induction h with
    | segment segment hwell => exact ⟨by simp, by simpa using hwell, by simp [join]⟩
    | dotted segment segments text hwell hrest ih =>
      obtain ⟨hne, hwells, rfl⟩ := ih
      refine ⟨by simp, List.forall_mem_cons.2 ⟨hwell, hwells⟩, ?_⟩
      cases segments with
      | nil => exact absurd rfl hne
      | cons next segments => simp [join, List.intercalate_cons_cons]
  · rintro ⟨hne, hwells, rfl⟩
    induction segments with
    | nil => exact absurd rfl hne
    | cons segment segments ih =>
      obtain ⟨hwell, hwells⟩ := List.forall_mem_cons.1 hwells
      cases segments with
      | nil =>
        have hone := Derives.segment segment hwell
        simpa [join] using hone
      | cons next segments =>
        have hmore := Derives.dotted segment _ _ hwell (ih (by simp) hwells)
        simpa [join, List.intercalate_cons_cons] using hmore

/-- The code reads a string as segments exactly when the grammar derives it from them. -/
theorem parseSegments_split {segments : List Segment} {raw : Str} :
    parseSegments raw 0 (raw.splitOn 0x2E) = .ok segments ↔ Derives segments raw := by
  have hdot : js "." = [(0x2E : UInt16)] := rfl
  rw [parseSegments_ok_iff, derives_iff]
  constructor
  · rintro ⟨hwells, hwrites⟩
    refine ⟨?_, hwells, ?_⟩
    · rintro rfl
      exact absurd hwrites.symm (List.splitOn_ne_nil 0x2E raw)
    · rw [hwrites, join, hdot, List.intercalate_splitOn]
  · rintro ⟨hne, hwells, rfl⟩
    refine ⟨hwells, ?_⟩
    rw [join, hdot]
    refine (List.splitOn_intercalate 0x2E ?_ (by simpa using hne)).symm
    intro part hpart
    obtain ⟨segment, hsegment, rfl⟩ := List.mem_map.1 hpart
    exact (hwells segment hsegment).dot_not_mem

/-- What a resource derived from segments is read as. -/
def resourceOf (raw : Str) (segments : List Segment) : Resource where
  raw
  resourceType := typesText (segments.map Segment.type)
  resourceId := segments.getLast?.bind Segment.id

theorem parse_ok_iff {raw : Str} {resource : Resource} :
    parse raw = .ok resource ↔ ∃ segments, Derives segments raw ∧ resource = resourceOf raw segments := by
  rw [parse]
  constructor
  · intro h
    obtain ⟨segments, hsegments, h⟩ := ExceptFold.bind_eq_ok h
    exact ⟨segments, parseSegments_split.1 hsegments, (Except.ok.inj h).symm⟩
  · rintro ⟨segments, hderives, rfl⟩
    rw [parseSegments_split.2 hderives]
    rfl

/-! ## Types and scopes -/

/-- No type holds the dot they are joined with. -/
theorem typesText_injective {types types' : List Str} (h : ∀ type ∈ types, Token type)
    (h' : ∀ type ∈ types', Token type) (heq : typesText types = typesText types') : types = types' := by
  have hempty : ∀ {types : List Str}, (∀ type ∈ types, Token type) → typesText types = [] → types = [] := by
    intro types htypes hnil
    cases types with
    | nil => rfl
    | cons type types =>
      have hne := (htypes type (by simp)).nonempty
      cases types with
      | nil => exact absurd hnil (by simpa [typesText, join] using hne)
      | cons next types => exact absurd hnil (by simp [typesText, join, List.intercalate_cons_cons, hne])
  have hsplit : ∀ {types : List Str}, (∀ type ∈ types, Token type) → types ≠ [] →
      (typesText types).splitOn 0x2E = types := fun htypes hne =>
    List.splitOn_intercalate 0x2E (fun type htype => (htypes type htype).dot_not_mem) hne
  by_cases hne : types = []
  · subst hne
    exact (hempty h' heq.symm).symm
  · have hne' : types' ≠ [] := by
      rintro rfl
      exact hne (hempty h heq)
    rw [← hsplit h hne, ← hsplit h' hne', heq]

theorem Derives.types {segments : List Segment} {raw : Str} (h : Derives segments raw) :
    ∀ type ∈ segments.map Segment.type, Token type := by
  intro type htype
  obtain ⟨segment, hsegment, rfl⟩ := List.mem_map.1 htype
  exact ((derives_iff.1 h).2.1 segment hsegment).type

theorem colon_not_mem_typesText {types : List Str} (h : ∀ type ∈ types, Token type) :
    (0x3A : UInt16) ∉ typesText types := by
  induction types with
  | nil => simp [typesText, join]
  | cons type types ih =>
    obtain ⟨htype, htypes⟩ := List.forall_mem_cons.1 h
    have hcolon := htype.colon_not_mem
    cases types with
    | nil => simpa [typesText, join] using hcolon
    | cons next types =>
      have hrest := ih htypes
      have hdot : (0x3A : UInt16) ∉ js "." := by decide
      simp only [typesText, join, List.intercalate_cons_cons, List.mem_append, not_or] at hrest ⊢
      exact ⟨⟨hcolon, hdot⟩, hrest⟩

/-- The scope is cut at its last colon, as no type holds one. -/
theorem requiredScope_injective {context context' : CollectorContext}
    (h : (0x3A : UInt16) ∉ context.resource.resourceType)
    (h' : (0x3A : UInt16) ∉ context'.resource.resourceType)
    (heq : ResourceActionScopeRuleCollector.requiredScope context =
      ResourceActionScopeRuleCollector.requiredScope context') :
    context.action = context'.action ∧ context.resource.resourceType = context'.resource.resourceType := by
  have hcolon : js ":" = [(0x3A : UInt16)] := rfl
  refine Framing.cut_at_last h h' ?_
  simpa [ResourceActionScopeRuleCollector.requiredScope, hcolon] using heq

/-- What the parser accepts, and what it makes of it. -/
structure ParsesGrammar : Prop where
  /-- A string is accepted exactly when the grammar derives it. -/
  accepts : ∀ raw, (∃ resource, parse raw = .ok resource) ↔ ∃ segments, Derives segments raw
  /-- It is read as the segments that are written back as the string, and as no others. -/
  reads : ∀ raw resource, parse raw = .ok resource → ∃ segments,
    parseSegments raw 0 (raw.splitOn 0x2E) = .ok segments ∧
      join (js ".") (segments.map Segment.write) = raw ∧
      Derives segments raw ∧ (∀ others, Derives others raw → others = segments) ∧
      resource.raw = raw ∧ resource.resourceType = typesText (segments.map Segment.type) ∧
      resource.resourceId = segments.getLast?.bind Segment.id
  /-- Distinct sequences of types are distinct resource types. -/
  types : ∀ types types', (∀ type ∈ types, Token type) → (∀ type ∈ types', Token type) →
    typesText types = typesText types' → types = types'
  /-- The scope two requests require is one only when their actions and their types are. -/
  scope : ∀ (context context' : CollectorContext) segments segments',
    parse context.resource.raw = .ok context.resource → Derives segments context.resource.raw →
    parse context'.resource.raw = .ok context'.resource → Derives segments' context'.resource.raw →
    ResourceActionScopeRuleCollector.requiredScope context =
      ResourceActionScopeRuleCollector.requiredScope context' →
    context.action = context'.action ∧ segments.map Segment.type = segments'.map Segment.type

theorem Derives.unique {segments others : List Segment} {raw : Str} (h : Derives segments raw)
    (h' : Derives others raw) : others = segments :=
  Except.ok.inj ((parseSegments_split.2 h').symm.trans (parseSegments_split.2 h))

/-- The type of what a derived resource is read as. -/
theorem resourceType_of_derives {segments : List Segment} {raw : Str} {resource : Resource}
    (hparse : parse raw = .ok resource) (h : Derives segments raw) :
    resource.resourceType = typesText (segments.map Segment.type) := by
  obtain ⟨others, hothers, rfl⟩ := parse_ok_iff.1 hparse
  obtain rfl := h.unique hothers
  rfl

theorem parses_grammar : ParsesGrammar := by
  refine ⟨fun raw => ?_, fun raw resource h => ?_, fun types types' => typesText_injective,
    fun context context' segments segments' hparse hderives hparse' hderives' heq => ?_⟩
  · constructor
    · rintro ⟨resource, h⟩
      obtain ⟨segments, hderives, -⟩ := parse_ok_iff.1 h
      exact ⟨segments, hderives⟩
    · rintro ⟨segments, hderives⟩
      exact ⟨_, parse_ok_iff.2 ⟨segments, hderives, rfl⟩⟩
  · obtain ⟨segments, hderives, rfl⟩ := parse_ok_iff.1 h
    exact ⟨segments, parseSegments_split.2 hderives, (derives_iff.1 hderives).2.2, hderives,
      fun others hothers => hderives.unique hothers, rfl, rfl, rfl⟩
  · have htype := resourceType_of_derives hparse hderives
    have htype' := resourceType_of_derives hparse' hderives'
    obtain ⟨haction, htypes⟩ := requiredScope_injective
      (htype ▸ colon_not_mem_typesText hderives.types) (htype' ▸ colon_not_mem_typesText hderives'.types) heq
    rw [htype, htype'] at htypes
    exact ⟨haction, typesText_injective hderives.types hderives'.types htypes⟩

end PolicyVerifier.Builtins
