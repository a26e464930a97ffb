import PolicyVerifier.Builtins.AttributeMapping
import PolicyVerifier.Core.Proofs.MergeProofs

/-!
# What a caller can reach through the request context

No mapping the constructor accepts leads to a reserved key, so that what a caller sends is never merged
into one. What is promoted is read off the declared fields alone, and is of the type declared for it.
-/

namespace PolicyVerifier.Builtins

open Js PolicyVerifier.Core

/-! ## The declaration -/

section Parsing

variable {string : Value → Str} {registry : AttributeKeyRegistry} {collector : Str}
  {reservedKeyPolicy : ReservedKeyPolicy}

/-- Where the policy refuses every reservation, a checked key is nobody's. -/
theorem checkReserved_ok (hpolicy : ∀ index reservation, (reservedKeyPolicy index reservation).isSome)
    {index : Nat} {key : Str} (h : checkReserved registry reservedKeyPolicy index key = .ok ()) :
    registry.has key = false := by
  rw [← AttributeKeyRegistry.attributeKeyReservation_isSome]
  unfold checkReserved at h
  cases hreservation : registry.attributeKeyReservation key with
  | none => rfl
  | some reservation =>
    obtain ⟨refusal, hrefusal⟩ := Option.isSome_iff_exists.1 (hpolicy index reservation)
    simp only [hreservation, hrefusal] at h
    exact absurd h (by simp)

theorem parseAttributeMapping_ok
    (hpolicy : ∀ index reservation, (reservedKeyPolicy index reservation).isSome) {index : Nat}
    {mapping : Value} {resolved : ResolvedAttributeMapping}
    (h : parseAttributeMapping string registry collector reservedKeyPolicy index mapping = .ok resolved) :
    registry.has resolved.«to» = false := by
  unfold parseAttributeMapping at h
  dsimp only at h
  split at h
  · exact absurd h (by simp)
  · split at h
    · exact absurd h (by simp)
    · rename_i key hkey
      split at h
      · exact absurd h (by simp)
      · cases hcheck : checkReserved registry reservedKeyPolicy index key with
        | error refusal =>
          rw [hcheck] at h
          exact absurd h (by simp [Except.map])
        | ok checked =>
          rw [hcheck] at h
          obtain rfl := Except.ok.inj h
          exact checkReserved_ok hpolicy hcheck

theorem parseMappings_ok
    (hpolicy : ∀ index reservation, (reservedKeyPolicy index reservation).isSome)
    {mappings : List Value} {index : Nat} {resolved : List ResolvedAttributeMapping}
    (h : parseMappings string registry collector reservedKeyPolicy index mappings = .ok resolved) :
    ∀ mapping ∈ resolved, registry.has mapping.«to» = false := by
  induction mappings generalizing index resolved with
  | nil =>
    obtain rfl := Except.ok.inj h
    simp
  | cons mapping mappings ih =>
    obtain ⟨first, hfirst, h⟩ := ExceptFold.bind_eq_ok h
    obtain ⟨rest, hrest, h⟩ := ExceptFold.bind_eq_ok h
    obtain rfl := Except.ok.inj h
    intro m hm
    rcases List.mem_cons.1 hm with rfl | hm
    · exact parseAttributeMapping_ok hpolicy hfirst
    · exact ih hrest m hm

theorem parseAttributeMappings_ok
    (hpolicy : ∀ index reservation, (reservedKeyPolicy index reservation).isSome) {config : Value}
    {resolved : List ResolvedAttributeMapping}
    (h : parseAttributeMappings string registry collector reservedKeyPolicy config = .ok resolved) :
    ∀ mapping ∈ resolved, registry.has mapping.«to» = false := by
  unfold parseAttributeMappings at h
  split at h
  · split at h
    · exact absurd h (by simp)
    · exact parseMappings_ok hpolicy h
  · exact absurd h (by simp)

end Parsing

/-- The constructor accepts no mapping onto a key that is reserved when it runs. -/
theorem RequestContextAttributeCollector.new_unreserved {string : Value → Str} {upper : UInt16 → Str}
    {registry : AttributeKeyRegistry} {config : Value} {collector : RequestContextAttributeCollector}
    (h : new string upper registry config = .ok collector) :
    ∀ mapping ∈ collector.mappings, registry.has mapping.«to» = false := by
  unfold new at h
  cases hparse : parseAttributeMappings string registry (js "RequestContextAttributeCollector")
      (fun index reservation => some (refusal upper registry index reservation)) config with
  | error e =>
    rw [hparse] at h
    exact absurd h (by simp [Except.map])
  | ok mappings =>
    rw [hparse] at h
    obtain rfl := Except.ok.inj h
    exact parseAttributeMappings_ok (fun _ _ => rfl) hparse

/-! ## Reading a field -/

/-- A chain of own properties from a value to another. -/
inductive OwnChain : Value → List Str → Value → Prop where
  | here (value : Value) : OwnChain value [] value
  | step {value next last : Value} {segment : Str} {segments : List Str} :
      own? value segment = some next → OwnChain next segments last →
      OwnChain value (segment :: segments) last

theorem walk_eq {current last : Value} {segments : List Str} (h : OwnChain current segments last) :
    walk current segments = last := by
  induction h with
  | here value => rfl
  | step hown _ ih => rw [walk, hown]; exact ih

theorem walk_eq_undefined {current : Value} {segments : List Str}
    (h : ¬ ∃ last, OwnChain current segments last) : walk current segments = .undefined := by
  induction segments generalizing current with
  | nil => exact absurd ⟨current, .here current⟩ h
  | cons segment segments ih =>
    rw [walk]
    cases hown : own? current segment with
    | none => rfl
    | some next => exact ih fun ⟨last, hlast⟩ => h ⟨last, .step hown hlast⟩

/-- What is held for a field: under the exact own key, or else along its dot path. -/
def Holds (root : List (Str × Value)) (path : Str) (value : Value) : Prop :=
  Value.findProp path root = some value ∨
    Value.findProp path root = none ∧ OwnChain (.obj 0 root) (path.splitOn 0x2E) value

theorem readPath_of_holds {root : List (Str × Value)} {path : Str} {value : Value}
    (h : Holds root path value) : readPath root path = value := by
  rcases h with hexact | ⟨hnone, hchain⟩
  · rw [readPath, hexact]
  · rw [readPath, hnone]
    exact walk_eq hchain

theorem readPath_of_not_holds {root : List (Str × Value)} {path : Str}
    (h : ¬ ∃ value, Holds root path value) : readPath root path = .undefined := by
  cases hfind : Value.findProp path root with
  | some value => exact absurd ⟨value, Or.inl hfind⟩ h
  | none =>
    rw [readPath, hfind]
    exact walk_eq_undefined fun ⟨last, hlast⟩ => h ⟨last, Or.inr ⟨hfind, hlast⟩⟩

/-! ## What is promoted -/

/-- The values of a declared type. -/
inductive HasType : AttributeMappingType → Value → Prop where
  | string {s : Str} : s ≠ [] → HasType .string (.str s)
  | number {n : Number} : n.isFinite = true → HasType .number (.num n)
  | boolean (b : Bool) : HasType .boolean (.bool b)
  | strings {items : List Str} : (∀ s ∈ items, s ≠ []) → HasType .strings (Value.strings items)

theorem nonEmpty?_isSome {item : Value} : (nonEmpty? item).isSome = true ↔
    ∃ s, s ≠ [] ∧ item = .str s := by
  cases item with
  | str s => by_cases hs : s = [] <;> simp [nonEmpty?, hs]
  | _ => simp [nonEmpty?]

/-- A list of non-empty strings, written as one. -/
theorem items_of_nonEmpty {items : List Value} (h : ∀ item ∈ items, (nonEmpty? item).isSome = true) :
    ∃ strings : List Str, items = strings.map .str ∧ ∀ s ∈ strings, s ≠ [] := by
  induction items with
  | nil => exact ⟨[], rfl, by simp⟩
  | cons item items ih =>
    obtain ⟨s, hs, rfl⟩ := nonEmpty?_isSome.1 (h item List.mem_cons_self)
    obtain ⟨strings, rfl, hstrings⟩ := ih fun i hi => h i (List.mem_cons_of_mem _ hi)
    exact ⟨s :: strings, rfl, by simpa using ⟨hs, hstrings⟩⟩

theorem promoted_hasType {raw : Value} {type : AttributeMappingType}
    (h : matchesType raw type = true) : HasType type (promoted raw) := by
  unfold matchesType at h
  split at h
  · exact .string (of_decide_eq_true h)
  · exact .number h
  · exact .boolean _
  · obtain ⟨strings, rfl, hstrings⟩ := items_of_nonEmpty (List.all_eq_true.1 h)
    exact .strings hstrings
  · exact absurd h (by simp)

/-- Two readings that agree: the same value, or two arrays whose items agree. The references differ from
one request to another, and objects are never promoted, whatever they hold. -/
inductive Agree : Value → Value → Prop where
  | refl (value : Value) : Agree value value
  | arr {r q : Nat} {xs ys : List Value} : List.Forall₂ Agree xs ys → Agree (.arr r xs) (.arr q ys)
  | obj (r q : Nat) (xs ys : List (Str × Value)) : Agree (.obj r xs) (.obj q ys)

theorem Agree.nonEmpty? {a b : Value} (h : Agree a b) : nonEmpty? a = nonEmpty? b := by
  cases h with
  | refl => rfl
  | arr => rfl
  | obj => rfl

theorem Agree.of_undefined {value : Value} (h : Agree .undefined value) : value = .undefined := by
  cases h
  rfl

/-- Lists of strings agree only when they are the same. -/
theorem Agree.strings_eq {xs ys : List Value} (h : List.Forall₂ Agree xs ys)
    (hxs : ∀ item ∈ xs, (Builtins.nonEmpty? item).isSome = true) : xs = ys := by
  induction h with
  | nil => rfl
  | cons hxy _ ih =>
    obtain ⟨s, -, rfl⟩ := nonEmpty?_isSome.1 (hxs _ List.mem_cons_self)
    cases hxy
    rw [ih fun item hitem => hxs item (List.mem_cons_of_mem _ hitem)]

theorem Agree.matchesType {a b : Value} (h : Agree a b) (type : AttributeMappingType) :
    matchesType a type = matchesType b type := by
  cases h with
  | refl => rfl
  | obj => cases type <;> rfl
  | arr hitems =>
    cases type with
    | strings =>
      induction hitems with
      | nil => rfl
      | cons hxy _ ih =>
        simp only [Builtins.matchesType, List.all_cons] at ih ⊢
        rw [ih, hxy.nonEmpty?]
    | _ => rfl

theorem Agree.promoted {a b : Value} (h : Agree a b) {type : AttributeMappingType}
    (hmatches : Builtins.matchesType a type = true) : promoted a = promoted b := by
  cases h with
  | refl => rfl
  | obj => cases type <;> exact absurd hmatches (by simp [Builtins.matchesType])
  | arr hitems =>
    cases type with
    | strings =>
      rw [Agree.strings_eq hitems (List.all_eq_true.1 hmatches)]
      rfl
    | _ => exact absurd hmatches (by simp [Builtins.matchesType])

/-! ## The promotion -/

/-- What one mapping writes. -/
theorem promoteMappings_concat (mappings : List ResolvedAttributeMapping)
    (mapping : ResolvedAttributeMapping) (source : List (Str × Value)) :
    promoteMappings (mappings ++ [mapping]) source =
      if matchesType (readPath source mapping.«from») mapping.type then
        (promoteMappings mappings source).set mapping.«to»
          (promoted (readPath source mapping.«from»))
      else promoteMappings mappings source := by
  simp only [promoteMappings, List.foldl_append, List.foldl_cons, List.foldl_nil]

/-- Everything promoted was declared, and is of the type it was declared as. -/
theorem promoteMappings_typed {mappings : List ResolvedAttributeMapping} {source : List (Str × Value)}
    {key : Str} {value : Value} (h : (promoteMappings mappings source).get? key = some value) :
    ∃ mapping ∈ mappings, mapping.«to» = key ∧ HasType mapping.type value := by
  induction mappings using List.reverseRecOn generalizing value with
  | nil => exact absurd h (by simp [promoteMappings])
  | append_singleton mappings mapping ih =>
    have hearlier : (promoteMappings mappings source).get? key = some value →
        ∃ m ∈ mappings ++ [mapping], m.«to» = key ∧ HasType m.type value := by
      intro hget
      obtain ⟨m, hm, hkey⟩ := ih hget
      exact ⟨m, List.mem_append_left _ hm, hkey⟩
    rw [promoteMappings_concat] at h
    split at h
    · rename_i hmatches
      rw [OrderedMap.get?_set] at h
      split at h
      · rename_i hkey
        obtain rfl := Option.some.inj h
        exact ⟨mapping, List.mem_append_right _ (List.mem_singleton_self _), hkey,
          promoted_hasType hmatches⟩
      · exact hearlier h
    · exact hearlier h

theorem promoteMappings_congr {mappings : List ResolvedAttributeMapping} {x y : List (Str × Value)}
    (h : ∀ mapping ∈ mappings, Agree (readPath x mapping.«from») (readPath y mapping.«from»)) :
    promoteMappings mappings x = promoteMappings mappings y := by
  induction mappings using List.reverseRecOn with
  | nil => rfl
  | append_singleton mappings mapping ih =>
    have hlast := h mapping (List.mem_append_right _ (List.mem_singleton_self _))
    rw [promoteMappings_concat, promoteMappings_concat, hlast.matchesType,
      ih fun m hm => h m (List.mem_append_left _ hm)]
    split
    · rename_i hmatches
      rw [hlast.promoted (hlast.matchesType mapping.type ▸ hmatches)]
    · rfl

/-- A source none of whose declared fields is held promotes nothing. -/
theorem promoteMappings_undefined {mappings : List ResolvedAttributeMapping}
    {source : List (Str × Value)}
    (h : ∀ mapping ∈ mappings, Agree (readPath source mapping.«from») .undefined) :
    promoteMappings mappings source = ∅ := by
  induction mappings using List.reverseRecOn with
  | nil => rfl
  | append_singleton mappings mapping ih =>
    have hlast := h mapping (List.mem_append_right _ (List.mem_singleton_self _))
    have hnone : matchesType .undefined mapping.type = false := by cases mapping.type <;> rfl
    rw [promoteMappings_concat, hlast.matchesType, hnone,
      ih fun m hm => h m (List.mem_append_left _ hm)]
    rfl

namespace RequestContextAttributeCollector

/-- The collector, among others. -/
def settles (self : RequestContextAttributeCollector) : AttributeCollector :=
  fun context => .ok (self.collect context)

/-- A declared field, as a request has it: one without a request context has none. -/
def read (context : CollectorContext) (path : Str) : Value :=
  match context.requestContext with
  | none => .undefined
  | some requestContext => readPath requestContext path

theorem collect_congr {collector : RequestContextAttributeCollector} {x y : CollectorContext}
    (h : ∀ mapping ∈ collector.mappings, Agree (read x mapping.«from») (read y mapping.«from»)) :
    collector.collect x = collector.collect y := by
  unfold read at h
  unfold collect
  cases hx : x.requestContext with
  | none =>
    cases hy : y.requestContext with
    | none => rfl
    | some root =>
      simp only [hx, hy] at h
      refine (promoteMappings_undefined fun mapping hmapping => ?_).symm
      rw [(h mapping hmapping).of_undefined]
      exact .refl _
  | some root =>
    cases hy : y.requestContext with
    | none =>
      simp only [hx, hy] at h
      exact promoteMappings_undefined h
    | some other =>
      simp only [hx, hy] at h
      exact promoteMappings_congr h

theorem collect_typed {collector : RequestContextAttributeCollector} {context : CollectorContext}
    {key : Str} {value : Value} (h : (collector.collect context).get? key = some value) :
    ∃ mapping ∈ collector.mappings, mapping.«to» = key ∧ HasType mapping.type value := by
  unfold collect at h
  cases hcontext : context.requestContext with
  | none =>
    rw [hcontext] at h
    exact absurd h (by simp)
  | some root =>
    rw [hcontext] at h
    exact promoteMappings_typed h

end RequestContextAttributeCollector

/-! ## Two requests -/

/-- A collector that does not read the request context. -/
def IgnoresRequestContext (collector : AttributeCollector) : Prop :=
  ∀ context requestContext, collector { context with requestContext } = collector context

theorem collectAll_ok {collectors : List AttributeCollector} {context : CollectorContext}
    {attrs : Attributes} (h : collectAll collectors context = .ok attrs) :
    ∃ maps, List.mapM (fun (c : AttributeCollector) => c context) collectors = .ok maps ∧
      merge maps = .ok attrs := by
  unfold collectAll at h
  cases hmaps : List.mapM (fun (c : AttributeCollector) => c context) collectors with
  | error e =>
    rw [hmaps] at h
    exact absurd h (by simp [Except.map, collectAttributes])
  | ok maps =>
    rw [hmaps] at h
    exact ⟨maps, rfl, (collectAttributes_whole maps).symm.trans h⟩

/-- What the two requests' maps keep of the reserved keys is the same. -/
theorem mapM_restrict {keep : Str → Bool} {collector : RequestContextAttributeCollector}
    {before after : List AttributeCollector} {x y : CollectorContext} {xs ys : List Attributes}
    (hkeep : ∀ mapping ∈ collector.mappings, keep mapping.«to» = false)
    (hothers : ∀ c ∈ before ++ after, c x = c y)
    (hx : (before ++ collector.settles :: after).mapM (fun (c : AttributeCollector) => c x) = .ok xs)
    (hy : (before ++ collector.settles :: after).mapM (fun (c : AttributeCollector) => c y) = .ok ys) :
    xs.map (OrderedMap.restrict keep) = ys.map (OrderedMap.restrict keep) := by
  have hsame : ∀ c ∈ before ++ collector.settles :: after,
      (c x).map (OrderedMap.restrict keep) = (c y).map (OrderedMap.restrict keep) := by
    intro c hc
    rcases List.mem_append.1 hc with hbefore | hrest
    · rw [hothers c (List.mem_append_left _ hbefore)]
    · rcases List.mem_cons.1 hrest with rfl | hafter
      · have hempty : ∀ context, (collector.collect context).restrict keep = ∅ := by
          intro context
          refine OrderedMap.restrict_eq_empty fun key hkey => ?_
          obtain ⟨value, hvalue⟩ := Option.isSome_iff_exists.1 ((OrderedMap.get?_isSome_iff _ key).2 hkey)
          obtain ⟨mapping, hmapping, rfl, -⟩ := RequestContextAttributeCollector.collect_typed hvalue
          exact hkeep mapping hmapping
        show Except.ok _ = Except.ok _
        rw [hempty x, hempty y]
      · rw [hothers c (List.mem_append_right _ hafter)]
  clear hothers
  generalize before ++ collector.settles :: after = collectors at hx hy hsame
  induction collectors generalizing xs ys with
  | nil =>
    obtain rfl := Except.ok.inj hx
    obtain rfl := Except.ok.inj hy
    rfl
  | cons c cs ih =>
    rw [List.mapM_cons] at hx hy
    obtain ⟨a, ha, hx⟩ := ExceptFold.bind_eq_ok hx
    obtain ⟨as, has, hx⟩ := ExceptFold.bind_eq_ok hx
    obtain ⟨b, hb, hy⟩ := ExceptFold.bind_eq_ok hy
    obtain ⟨bs, hbs, hy⟩ := ExceptFold.bind_eq_ok hy
    obtain rfl := Except.ok.inj hx
    obtain rfl := Except.ok.inj hy
    have hfirst := hsame c List.mem_cons_self
    rw [ha, hb] at hfirst
    rw [List.map_cons, List.map_cons, Except.ok.inj hfirst,
      ih has hbs fun d hd => hsame d (List.mem_cons_of_mem _ hd)]

/-- What the engine keeps of two requests that differ in their request context alone. -/
structure Confined (registry : AttributeKeyRegistry) (collector : RequestContextAttributeCollector)
    (before after : List AttributeCollector) (x y : CollectorContext) : Prop where
  /-- A reserved key holds the same value in both merged maps, or is in neither. -/
  reserved : ∀ m m', collectAll (before ++ collector.settles :: after) x = .ok m →
    collectAll (before ++ collector.settles :: after) y = .ok m' →
    ∀ key, registry.has key = true → m.get? key = m'.get? key
  /-- Nothing but the declared fields is read. -/
  declared : (∀ mapping ∈ collector.mappings,
      Agree (RequestContextAttributeCollector.read x mapping.«from»)
        (RequestContextAttributeCollector.read y mapping.«from»)) →
    collectAll (before ++ collector.settles :: after) x =
      collectAll (before ++ collector.settles :: after) y
  /-- A field is an own property, under the exact key or along the dot path. -/
  fields : ∀ root path, (∀ value, Holds root path value → readPath root path = value) ∧
    ((¬ ∃ value, Holds root path value) → readPath root path = .undefined)
  /-- What is promoted was declared, and is of the type it was declared as. -/
  typed : ∀ key value, (collector.collect x).get? key = some value →
    ∃ mapping ∈ collector.mappings, mapping.«to» = key ∧ HasType mapping.type value

/-- Whatever the caller sends, no reserved key is reached through a collector that was accepted. -/
theorem request_context_confined (string : Value → Str) (upper : UInt16 → Str)
    (registry : AttributeKeyRegistry) (config : Value) (collector : RequestContextAttributeCollector)
    (hnew : RequestContextAttributeCollector.new string upper registry config = .ok collector)
    (before after : List AttributeCollector)
    (hothers : ∀ c ∈ before ++ after, IgnoresRequestContext c) (context : CollectorContext)
    (requestContext : Option (List (Str × Value))) :
    Confined registry collector before after context { context with requestContext } := by
  have hunreserved := RequestContextAttributeCollector.new_unreserved hnew
  have hsame : ∀ c ∈ before ++ after, c context = c { context with requestContext } :=
    fun c hc => (hothers c hc context requestContext).symm
  refine ⟨fun m m' hm hm' key hkey => ?_, fun hagree => ?_, fun root path => ⟨fun value => ?_, ?_⟩,
    fun key value => ?_⟩
  · obtain ⟨xs, hxs, hxm⟩ := collectAll_ok hm
    obtain ⟨ys, hys, hym⟩ := collectAll_ok hm'
    have hmaps := mapM_restrict hunreserved hsame hxs hys
    have hkept : m.restrict registry.has = m'.restrict registry.has := by
      have hx : merge (xs.map (OrderedMap.restrict registry.has)) = .ok (m.restrict registry.has) :=
        merge_restrict hxm
      rw [hmaps, merge_restrict hym] at hx
      exact (Except.ok.inj hx).symm
    have hread := congrArg (OrderedMap.get? · key) hkept
    simpa only [OrderedMap.get?_restrict, hkey, if_true] using hread
  · have hsettles : collector.settles context = collector.settles { context with requestContext } :=
      congrArg Except.ok (RequestContextAttributeCollector.collect_congr hagree)
    unfold collectAll
    congr 2
    refine ExceptFold.mapM_congr fun c hc => ?_
    rcases List.mem_append.1 hc with hbefore | hrest
    · exact hsame c (List.mem_append_left _ hbefore)
    · rcases List.mem_cons.1 hrest with rfl | hafter
      · exact hsettles
      · exact hsame c (List.mem_append_right _ hafter)
  · exact readPath_of_holds
  · exact readPath_of_not_holds
  · exact RequestContextAttributeCollector.collect_typed

/-- A declaration that promotes the groups a caller says it is in. -/
def callerGroups : Value :=
  .obj 0 [(js "attributes", .arr 1 [.obj 2 [(js "from", .str (js "groups")), (js "type", .str (js "string[]"))]])]

/-- The deployment's roles, from its configuration. -/
def configuredRoles : AttributeCollector :=
  fun _ => .ok (OrderedMap.ofList [(attrRoles, Value.strings [js "reader"])])

/-- A request whose caller sends groups, and roles of its own. -/
def callerSays (group : String) : CollectorContext where
  subject _ := .undefined
  resource := { raw := js "order", resourceType := js "order", resourceId := none }
  action := js "read"
  requestContext := some [(js "groups", .arr 0 [.str (js group)]), (js "roles", .arr 1 [.str (js "admin")])]

theorem request_context_confined_roles : ∃ registry collector m m',
    AttributeKeyRegistry.reserveAttributeKeys {} (.str coreAttributeKeyOwner)
      (.arr 0 [.str attrScopes, .str attrRoles]) none = .ok registry ∧
    RequestContextAttributeCollector.new (fun _ => []) (fun c => [c]) registry callerGroups =
      .ok collector ∧
    collectAll [configuredRoles, collector.settles] (callerSays "a") = .ok m ∧
    collectAll [configuredRoles, collector.settles] (callerSays "b") = .ok m' ∧
    m.get? attrRoles = m'.get? attrRoles ∧ m.get? (js "groups") ≠ m'.get? (js "groups") := by
  obtain ⟨registry, collector, m, m', hregistry, hreserved, hnew, hm, hm', hgroups⟩ :
      ∃ registry collector m m',
        AttributeKeyRegistry.reserveAttributeKeys {} (.str coreAttributeKeyOwner)
          (.arr 0 [.str attrScopes, .str attrRoles]) none = .ok registry ∧
        registry.has attrRoles = true ∧
        RequestContextAttributeCollector.new (fun _ => []) (fun c => [c]) registry callerGroups =
          .ok collector ∧
        collectAll [configuredRoles, collector.settles] (callerSays "a") = .ok m ∧
        collectAll [configuredRoles, collector.settles] (callerSays "b") = .ok m' ∧
        m.get? (js "groups") ≠ m'.get? (js "groups") :=
    ⟨_, _, _, _, rfl, rfl, rfl, rfl, rfl, by decide⟩
  have hconfined := request_context_confined (fun _ => []) (fun c => [c]) registry callerGroups collector
    hnew [configuredRoles] [] (by
      intro c hc
      rw [List.mem_singleton.1 hc]
      exact fun _ _ => rfl) (callerSays "a") (callerSays "b").requestContext
  exact ⟨registry, collector, m, m', hregistry, hnew, hm, hm',
    hconfined.reserved m m' hm hm' attrRoles hreserved, hgroups⟩

end PolicyVerifier.Builtins
