import PolicyVerifier.Builtins.Collectors
import PolicyVerifier.Builtins.Proofs.PermissionProofs
import PolicyVerifier.Builtins.Proofs.RequestContextProofs
import PolicyVerifier.Core.Proofs.KeyReservationProofs
import PolicyVerifier.Core.Proofs.MergeLawProofs

/-!
# What a deployment's attributes come from

Every item of a list under a reserved key was read from the token or is the configuration's own. A mapping
collector reaches only what its constructor let through, and that is looked up once, at the boot.
-/

namespace PolicyVerifier.Builtins

open Js PolicyVerifier.Core

/-! ## What is promoted -/

theorem promoteRead_concat (read : Str → Value) (mappings : List ResolvedAttributeMapping)
    (mapping : ResolvedAttributeMapping) : promoteRead read (mappings ++ [mapping]) =
      if matchesType (read mapping.«from») mapping.type then
        (promoteRead read mappings).set mapping.«to» (promoted (read mapping.«from»))
      else promoteRead read mappings := by
  rw [promoteRead, List.foldl_append]
  rfl

/-- What is promoted was declared, and is what was read for it. -/
theorem promoteRead_get? {read : Str → Value} {mappings : List ResolvedAttributeMapping} {key : Str} {value : Value}
    (h : (promoteRead read mappings).get? key = some value) : ∃ mapping ∈ mappings, mapping.«to» = key ∧
      matchesType (read mapping.«from») mapping.type = true ∧ value = promoted (read mapping.«from») := by
  induction mappings using List.reverseRecOn with
  | nil => exact absurd h (by simp [promoteRead])
  | append_singleton mappings mapping ih =>
    have hearlier : (promoteRead read mappings).get? key = some value →
        ∃ m ∈ mappings ++ [mapping], m.«to» = key ∧ matchesType (read m.«from») m.type = true ∧
          value = promoted (read m.«from») := by
      intro hget
      obtain ⟨m, hm, hmapping⟩ := ih hget
      exact ⟨m, List.mem_append_left _ hm, hmapping⟩
    rw [promoteRead_concat] at h
    split at h
    · rename_i hmatches
      rw [OrderedMap.get?_set] at h
      split at h
      · rename_i hkey
        obtain rfl := Option.some.inj h
        exact ⟨mapping, List.mem_append_right _ (List.mem_singleton_self _), hkey, hmatches, rfl⟩
      · exact hearlier h
    · exact hearlier h

/-! ## Where an item of a list comes from -/

/-- An item of the list a collector writes to a key, as read from the token or the configuration. -/
inductive Source (subject : SubjectAttributes) : BuiltinCollector → Str → Value → Prop where
  | scope (self : PayloadScopeCollector) (s : Str) (h : s ∈ scopesFrom (subject self.claim)) :
      Source subject (.payloadScope self) attrScopes (.str s)
  | permission (self : StaticPermissionCollector) (p : Value) (h : p ∈ self.permissions) :
      Source subject (.staticPermission self) attrPermissions p
  | role (self : StaticRoleCollector) (r : Value) (h : r ∈ self.roles) :
      Source subject (.staticRole self) attrRoles r
  | claim (self : PayloadClaimAttributeCollector) (mapping : ResolvedAttributeMapping) (hm : mapping ∈ self.mappings)
      (ref : Nat) (items : List Value) (hread : readClaim subject mapping.«from» = .arr ref items) (s : Str)
      (h : .str s ∈ items) : Source subject (.payloadClaim self) mapping.«to» (.str s)
  | range (self : DelegationRangeCollector) (entries : List Value)
      (hentries : entriesOfType (subject self.claim) self.type = some entries) (path : Str)
      (h : path ∈ rangePaths entries) : Source subject (.delegationRange self) attrDelegationRange (.str path)

/-- What a mapping collector was let through at the boot. -/
def BuiltinCollector.Checked (keys : AttributeKeyRegistry) : BuiltinCollector → Prop
  | .requestContext self => ∀ mapping ∈ self.mappings, keys.has mapping.«to» = false
  | .payloadClaim self => ∀ mapping ∈ self.mappings, ∀ reservation,
      keys.attributeKeyReservation mapping.«to» = some reservation → reservation.owner = coreAttributeKeyOwner
  | _ => True

theorem get?_ofList_one {key other : Str} {value found : Value}
    (h : (OrderedMap.ofList [(key, value)] : Attributes).get? other = some found) : key = other ∧ found = value := by
  have hset : (OrderedMap.ofList [(key, value)] : Attributes).get? other =
      (OrderedMap.set ∅ key value : Attributes).get? other := rfl
  rw [hset, OrderedMap.get?_set] at h
  split at h
  · exact ⟨‹_›, (Option.some.inj h).symm⟩
  · exact absurd h (by simp)

/-- A promoted list is one of the strings that were read. -/
theorem promoted_item {raw item : Value} {type : AttributeMappingType} {ref : Nat} {items : List Value}
    (hmatches : matchesType raw type = true) (hpromoted : Value.arr ref items = promoted raw) (hitem : item ∈ items) :
    ∃ r s, raw = .arr r items ∧ item = .str s := by
  cases raw with
  | arr r xs =>
    have hitems : items = xs := (Value.arr.inj hpromoted).2
    subst hitems
    refine ⟨r, ?_⟩
    cases type with
    | strings =>
      obtain ⟨s, -, rfl⟩ := nonEmpty?_isSome.1 (List.all_eq_true.1 hmatches item hitem)
      exact ⟨s, rfl, rfl⟩
    | string | number | boolean => exact absurd hmatches (by simp [matchesType])
  | _ => exact absurd hpromoted (by simp [promoted, Value.items?])

/-- A promoted string is the string that was read. -/
theorem promoted_str {raw : Value} {s : Str} (h : promoted raw = .str s) : raw = .str s := by
  cases raw with
  | arr r items => exact absurd h (by simp [promoted, Value.items?, Value.list])
  | _ => exact h

theorem nonEmpty?_eq_some {item : Value} {s : Str} : nonEmpty? item = some s ↔ s ≠ [] ∧ item = .str s := by
  constructor
  · intro h
    obtain ⟨t, ht, rfl⟩ := nonEmpty?_isSome.1 (Option.isSome_iff_exists.2 ⟨s, h⟩)
    have hsome : some t = some s := (if_neg ht).symm.trans h
    obtain rfl := Option.some.inj hsome
    exact ⟨ht, rfl⟩
  · rintro ⟨hs, rfl⟩
    exact if_neg hs

/-- The identities are the user's, read from `sub`, and the client's. -/
theorem subjectId_get? {context : CollectorContext} {key : Str} {value : Value}
    (h : (PayloadSubjectIdCollector.collect context).get? key = some value) :
    (key = attrUserId ∧ ∃ sub, nonEmpty? (context.subject (js "sub")) = some sub ∧ value = .str sub) ∨
      (key = attrClientId ∧ ∃ clientId, value = .str clientId) := by
  unfold PayloadSubjectIdCollector.collect at h
  cases hsub : nonEmpty? (context.subject (js "sub")) with
  | none =>
    rw [hsub] at h
    cases hclient : clientOf [context.subject (js "client_id"), context.subject (js "azp")] with
    | none =>
      rw [hclient] at h
      exact absurd h (by simp)
    | some clientId =>
      rw [hclient] at h
      obtain ⟨hkey, hvalue⟩ := get?_ofList_one h
      exact .inr ⟨hkey.symm, clientId, hvalue⟩
  | some sub =>
    rw [hsub] at h
    have huser : (OrderedMap.set ∅ attrUserId (.str sub) : Attributes).get? key = some value →
        key = attrUserId ∧ ∃ s, some sub = some s ∧ value = .str s := by
      intro hget
      obtain ⟨hkey, hvalue⟩ := get?_ofList_one hget
      exact ⟨hkey.symm, sub, rfl, hvalue⟩
    cases hclient : clientOf [context.subject (js "client_id"), context.subject (js "azp")] with
    | none =>
      rw [hclient] at h
      exact .inl (huser h)
    | some clientId =>
      rw [hclient] at h
      dsimp only at h
      rw [OrderedMap.get?_set] at h
      split at h
      · exact .inr ⟨Eq.symm ‹_›, clientId, (Option.some.inj h).symm⟩
      · exact .inl (huser h)

/-- A subject with an id is written. -/
theorem subjectId_user {context : CollectorContext} {sub : Str} (hsub : context.subject (js "sub") = .str sub)
    (hne : sub ≠ []) : (PayloadSubjectIdCollector.collect context).get? attrUserId = some (.str sub) := by
  have hread : nonEmpty? (context.subject (js "sub")) = some sub := nonEmpty?_eq_some.2 ⟨hne, hsub⟩
  unfold PayloadSubjectIdCollector.collect
  rw [hread]
  cases clientOf [context.subject (js "client_id"), context.subject (js "azp")] with
  | none => rfl
  | some clientId => rfl

/-- An item under a reserved key comes from the token or the configuration, whatever the caller sends. -/
theorem source_of_collected {keys : AttributeKeyRegistry} {collector : BuiltinCollector}
    (hchecked : collector.Checked keys) {context : CollectorContext} {key : Str} (hkey : keys.has key = true)
    {item : Value} (h : item ∈ arrayItems ((collector.collect context).get? key)) :
    Source context.subject collector key item := by
  obtain ⟨ref, items, hget, hitem⟩ := mem_arrayItems.1 h
  cases collector with
  | payloadScope self =>
    obtain ⟨rfl, hvalue⟩ := get?_ofList_one hget
    obtain ⟨-, rfl⟩ := Value.arr.inj hvalue
    obtain ⟨s, hs, rfl⟩ := List.mem_map.1 hitem
    exact .scope self s hs
  | staticPermission self =>
    obtain ⟨rfl, hvalue⟩ := get?_ofList_one hget
    obtain ⟨-, rfl⟩ := Value.arr.inj hvalue
    exact .permission self item hitem
  | staticRole self =>
    obtain ⟨rfl, hvalue⟩ := get?_ofList_one hget
    obtain ⟨-, rfl⟩ := Value.arr.inj hvalue
    exact .role self item hitem
  | payloadSubjectId =>
    rcases subjectId_get? hget with ⟨-, sub, -, hvalue⟩ | ⟨-, clientId, hvalue⟩
    · exact absurd hvalue (by simp)
    · exact absurd hvalue (by simp)
  | requestContext self =>
    obtain ⟨mapping, hm, rfl, -⟩ := RequestContextAttributeCollector.collect_typed hget
    rw [hchecked mapping hm] at hkey
    exact absurd hkey (by simp)
  | payloadClaim self =>
    obtain ⟨mapping, hm, rfl, hmatches, hvalue⟩ := promoteRead_get? hget
    obtain ⟨r, s, hread, rfl⟩ := promoted_item hmatches hvalue hitem
    exact .claim self mapping hm r items hread s hitem
  | delegationRange self =>
    have hcollect : (self.collect context).get? key = some (.arr ref items) := hget
    unfold DelegationRangeCollector.collect at hcollect
    split at hcollect
    · exact absurd hcollect (by simp)
    · rename_i entries hentries
      obtain ⟨rfl, hvalue⟩ := get?_ofList_one hcollect
      obtain ⟨-, rfl⟩ := Value.arr.inj hvalue
      obtain ⟨path, hpath, rfl⟩ := List.mem_map.1 hitem
      exact .range self entries hentries path hpath

/-! ## What the merge keeps of it -/

/-- An item of a merged list is an item of a list that was merged. -/
theorem merged_item {maps : List Attributes} {attrs : Attributes} (h : merge maps = .ok attrs) {key : Str}
    {item : Value} (hitem : item ∈ arrayItems (attrs.get? key)) :
    ∃ map ∈ maps, item ∈ arrayItems (map.get? key) := by
  obtain ⟨ref, items, hget, hmem⟩ := mem_arrayItems.1 hitem
  rcases merge_cases maps with ⟨merged, hmerged, -, hvalues⟩ | ⟨_, herror, -⟩
  · obtain rfl := Except.ok.inj (hmerged.symm.trans h)
    have hlists : ∃ w ∈ writes key maps, item ∈ arrayItems (some w) := by
      have hvalue := (hvalues key).symm.trans hget
      unfold mergedValue at hvalue
      split at hvalue
      · exact absurd hvalue (by simp)
      · rename_i last hlast
        split at hvalue
        · obtain ⟨-, rfl⟩ := Value.arr.inj (Option.some.inj hvalue)
          obtain ⟨part, hpart, hmem⟩ := List.mem_flatten.1 hmem
          obtain ⟨w, hw, hpart⟩ := List.mem_filterMap.1 hpart
          refine ⟨w, ?_, ?_⟩
          · exact List.mem_reverse.1 ((List.takeWhile_subset _) (List.mem_reverse.1 hw))
          · unfold arrayItems
            rw [Option.bind_some, hpart, Option.getD_some]
            exact hmem
        · rename_i hscalar
          obtain rfl := Option.some.inj hvalue
          exact absurd rfl hscalar
    obtain ⟨w, hw, hmem⟩ := hlists
    obtain ⟨map, hmap, hget⟩ := List.mem_filterMap.1 hw
    exact ⟨map, hmap, by rw [hget]; exact hmem⟩
  · exact absurd (herror.symm.trans h) (by simp)

/-- A key that is written in one way holds what was written. -/
theorem merged_alone {maps : List Attributes} {attrs : Attributes} (h : merge maps = .ok attrs) {key : Str}
    {value : Value} (hscalar : value.isArray = false) (hvalue : ∃ map ∈ maps, map.get? key = some value)
    (halone : ∀ map ∈ maps, ∀ w, map.get? key = some w → w = value) : attrs.get? key = some value := by
  rcases merge_cases maps with ⟨merged, hmerged, -, hvalues⟩ | ⟨_, herror, -⟩
  · obtain rfl := Except.ok.inj (hmerged.symm.trans h)
    obtain ⟨map, hmap, hget⟩ := hvalue
    have hne : writes key maps ≠ [] := List.ne_nil_of_mem (List.mem_filterMap.2 ⟨map, hmap, hget⟩)
    have hlast : (writes key maps).getLast? = some value := by
      obtain ⟨other, hother, hw⟩ := List.mem_filterMap.1 (List.getLast_mem hne)
      rw [List.getLast?_eq_some_getLast hne, halone other hother _ hw]
    rw [hvalues, mergedValue, hlast]
    simp [hscalar]
  · exact absurd (herror.symm.trans h) (by simp)

/-- A key nobody writes is absent. -/
theorem merged_absent {maps : List Attributes} {attrs : Attributes} (h : merge maps = .ok attrs) {key : Str}
    (habsent : ∀ map ∈ maps, map.get? key = none) : attrs.get? key = none := by
  rcases merge_cases maps with ⟨merged, hmerged, -, hvalues⟩ | ⟨_, herror, -⟩
  · obtain rfl := Except.ok.inj (hmerged.symm.trans h)
    have hnone : writes key maps = [] := List.filterMap_eq_nil_iff.2 habsent
    rw [hvalues, hnone]
    rfl
  · exact absurd (herror.symm.trans h) (by simp)

/-- A value that is not a list was written, and every other such value written to the key is the same. -/
theorem merged_scalar {maps : List Attributes} {attrs : Attributes} (h : merge maps = .ok attrs) {key : Str}
    {value : Value} (hscalar : value.isArray = false) (hget : attrs.get? key = some value) :
    (∃ map ∈ maps, map.get? key = some value) ∧
      ∀ map ∈ maps, ∀ w, map.get? key = some w → w.isArray = false → w = value := by
  rcases merge_cases maps with ⟨merged, hmerged, hagree, hvalues⟩ | ⟨_, herror, -⟩
  · obtain rfl := Except.ok.inj (hmerged.symm.trans h)
    have hwritten : value ∈ writes key maps := by
      have hvalue := (hvalues key).symm.trans hget
      unfold mergedValue at hvalue
      split at hvalue
      · exact absurd hvalue (by simp)
      · rename_i last hlast
        split at hvalue
        · obtain rfl := Option.some.inj hvalue
          exact absurd hscalar (by simp [Value.isArray, Value.list, Value.items?])
        · obtain rfl := Option.some.inj hvalue
          exact List.mem_of_getLast? hlast
    obtain ⟨map, hmap, hmine⟩ := List.mem_filterMap.1 hwritten
    refine ⟨⟨map, hmap, hmine⟩, fun other hother w hw hwscalar => ?_⟩
    by_contra hne
    refine hagree ⟨key, other, hother, map, hmap, w, value, hw, hmine, hwscalar, hscalar, ?_⟩
    exact Bool.eq_false_iff.2 fun his => hne ((Value.is_iff w value).1 his)
  · exact absurd (herror.symm.trans h) (by simp)

/-! ## What the boot let through -/

theorem registerAll_get {T : Type} {factories : List (Str × (Value → Except Str T))} {registry next : FactoryRegistry T}
    (h : registerAll registry factories = .ok next) {name : Str} {factory : Value → Except Str T}
    (hget : next.get name = .ok factory) :
    registry.get name = .ok factory ∨ (name, factory) ∈ factories := by
  induction factories generalizing registry with
  | nil =>
    obtain rfl := Except.ok.inj h
    exact .inl hget
  | cons first factories ih =>
    unfold registerAll at h
    rw [List.foldlM_cons] at h
    obtain ⟨registered, hregistered, h⟩ := ExceptFold.bind_eq_ok h
    rcases ih h with hearlier | hmem
    · rcases Registry.get_of_register hregistered hearlier with hearlier | ⟨rfl, rfl⟩
      · exact .inl hearlier
      · exact .inr List.mem_cons_self
    · exact .inr (List.mem_cons_of_mem _ hmem)

/-- A collector an entry resolved to was made by a factory that is registered. -/
theorem resolveEntries_mem {T : Type} {registry : FactoryRegistry T} {entries : List (Str × Value)} {made : List T}
    (h : resolveEntries registry entries = .ok made) {collector : T} (hc : collector ∈ made) :
    ∃ name config factory, registry.get name = .ok factory ∧ factory config = .ok collector := by
  induction entries generalizing made with
  | nil =>
    obtain rfl := Except.ok.inj h
    exact absurd hc (by simp)
  | cons entry entries ih =>
    unfold resolveEntries at h
    rw [List.mapM_cons] at h
    obtain ⟨first, hfirst, h⟩ := ExceptFold.bind_eq_ok h
    obtain ⟨rest, hrest, h⟩ := ExceptFold.bind_eq_ok h
    obtain rfl := Except.ok.inj h
    rcases List.mem_cons.1 hc with rfl | hc
    · obtain ⟨factory, hget, hmade⟩ := ExceptFold.bind_eq_ok hfirst
      exact ⟨entry.1, entry.2, factory, hget, hmade⟩
    · exact ih hrest hc

section Parsing

variable {string : Value → Str} {registry : AttributeKeyRegistry} {collector : Str}
  {reservedKeyPolicy : ReservedKeyPolicy}

/-- The policy allows a mapping onto every reserved key that the declaration reaches. -/
def Allowed (registry : AttributeKeyRegistry) (reservedKeyPolicy : ReservedKeyPolicy)
    (mapping : ResolvedAttributeMapping) : Prop :=
  ∀ reservation, registry.attributeKeyReservation mapping.«to» = some reservation →
    ∃ index, reservedKeyPolicy index reservation = none

theorem parseAttributeMapping_allowed {index : Nat} {mapping : Value} {resolved : ResolvedAttributeMapping}
    (h : parseAttributeMapping string registry collector reservedKeyPolicy index mapping = .ok resolved) :
    Allowed registry reservedKeyPolicy resolved := by
  unfold parseAttributeMapping at h
  dsimp only at h
  split at h
  · exact absurd h (by simp)
  split at h
  · exact absurd h (by simp)
  rename_i key hkey
  split at h
  · exact absurd h (by simp)
  cases hcheck : checkReserved registry reservedKeyPolicy index key with
  | error refusal =>
    rw [hcheck] at h
    exact absurd h (by simp [Except.map])
  | ok checked =>
    rw [hcheck] at h
    obtain rfl := Except.ok.inj h
    intro reservation hreservation
    refine ⟨index, ?_⟩
    unfold checkReserved at hcheck
    rw [hreservation] at hcheck
    dsimp only at hcheck
    split at hcheck
    · exact absurd hcheck (by simp)
    · assumption

theorem parseMappings_allowed {mappings : List Value} {index : Nat} {resolved : List ResolvedAttributeMapping}
    (h : parseMappings string registry collector reservedKeyPolicy index mappings = .ok resolved) :
    ∀ mapping ∈ resolved, Allowed registry reservedKeyPolicy mapping := by
  induction mappings generalizing index resolved with
  | nil =>
    obtain rfl := Except.ok.inj h
    exact fun _ hm => absurd hm (by simp)
  | cons mapping mappings ih =>
    obtain ⟨first, hfirst, h⟩ := ExceptFold.bind_eq_ok h
    obtain ⟨rest, hrest, h⟩ := ExceptFold.bind_eq_ok h
    obtain rfl := Except.ok.inj h
    intro m hm
    rcases List.mem_cons.1 hm with rfl | hm
    · exact parseAttributeMapping_allowed hfirst
    · exact ih hrest m hm

/-- The claims' collector reaches no key that another package than core reserved. -/
theorem PayloadClaimAttributeCollector.new_checked {upper : UInt16 → Str} {config : Value}
    {collector : PayloadClaimAttributeCollector} (h : new string upper registry config = .ok collector) :
    (BuiltinCollector.payloadClaim collector).Checked registry := by
  unfold new at h
  cases hparse : parseAttributeMappings string registry (js "PayloadClaimAttributeCollector") (policy upper registry)
      config with
  | error message =>
    rw [hparse] at h
    exact absurd h (by simp [Except.map])
  | ok mappings =>
    rw [hparse] at h
    obtain rfl := Except.ok.inj h
    unfold parseAttributeMappings at hparse
    split at hparse
    · split at hparse
      · exact absurd hparse (by simp)
      · intro mapping hm reservation hreservation
        obtain ⟨index, hallowed⟩ := parseMappings_allowed hparse mapping hm reservation hreservation
        unfold policy at hallowed
        split at hallowed
        · assumption
        · exact absurd hallowed (by simp)
    · exact absurd hparse (by simp)

end Parsing

theorem map_ok {α β : Type} {o : Except Str α} {f : α → β} {b : β} (h : o.map f = .ok b) : ∃ a, o = .ok a ∧ f a = b := by
  cases o with
  | error e => exact absurd h (by simp [Except.map])
  | ok a => exact ⟨a, rfl, Except.ok.inj h⟩

section Assembled

variable {string : Value → Str} {upper : UInt16 → Str} {keys : AttributeKeyRegistry}

/-- Every factory of the module makes a collector whose mappings were let through. -/
theorem factories_checked {name : Str} {factory : Value → Except Str BuiltinCollector}
    (h : (name, factory) ∈ attributeCollectorFactories string upper keys) {config : Value} {made : BuiltinCollector}
    (hmade : factory config = .ok made) : made.Checked keys := by
  unfold attributeCollectorFactories at h
  simp only [List.mem_cons, Prod.mk.injEq, List.not_mem_nil, or_false] at h
  rcases h with ⟨-, rfl⟩ | ⟨-, rfl⟩ | ⟨-, rfl⟩ | ⟨-, rfl⟩ | ⟨-, rfl⟩ | ⟨-, rfl⟩ | ⟨-, rfl⟩
  · obtain ⟨self, -, rfl⟩ := map_ok hmade
    trivial
  · obtain rfl := Except.ok.inj hmade
    trivial
  · obtain ⟨self, -, rfl⟩ := map_ok hmade
    trivial
  · obtain ⟨self, -, rfl⟩ := map_ok hmade
    trivial
  · obtain ⟨self, hself, rfl⟩ := map_ok hmade
    exact RequestContextAttributeCollector.new_unreserved hself
  · obtain ⟨self, hself, rfl⟩ := map_ok hmade
    exact PayloadClaimAttributeCollector.new_checked hself
  · obtain ⟨self, -, rfl⟩ := map_ok hmade
    trivial

/-- So does every entry of a config. -/
theorem Deployment.assemble_checked {attributeEntries ruleEntries : List (Str × Value)} {d : Deployment}
    (h : assemble string upper keys attributeEntries ruleEntries = .ok d) :
    ∀ collector ∈ d.attributeCollectors, collector.Checked keys := by
  obtain ⟨attributeRegistry, hregistry, h⟩ := ExceptFold.bind_eq_ok h
  obtain ⟨ruleRegistry, -, h⟩ := ExceptFold.bind_eq_ok h
  obtain ⟨attributeCollectors, hcollectors, h⟩ := ExceptFold.bind_eq_ok h
  obtain ⟨ruleCollectors, -, h⟩ := ExceptFold.bind_eq_ok h
  obtain rfl := Except.ok.inj h
  intro collector hc
  obtain ⟨name, config, factory, hget, hmade⟩ := resolveEntries_mem hcollectors hc
  rcases registerAll_get hregistry hget with hempty | hmem
  · exact absurd hempty (by simp [Registry.get])
  · exact factories_checked hmem hmade

end Assembled

/-! ## The keys that are reserved -/

/-- The registry once core and this package are loaded, whatever other packages reserve after them. -/
def Loaded (keys : AttributeKeyRegistry) : Prop :=
  ∃ later, keys.state = RegistryState.after {} (some coreReservation :: some builtinsReservation :: later)

/-- A key of those two is reserved as they reserved it. -/
theorem Loaded.reserved {keys : AttributeKeyRegistry} (h : Loaded keys) {key : Str} {held : AttributeKeyReservation}
    (hheld : (RegistryState.after {} [some coreReservation, some builtinsReservation]).attributeKeyReservation key =
      some held) : keys.attributeKeyReservation key = some held := by
  obtain ⟨later, hstate⟩ := h
  have hkept := RegistryState.kept_after
    (RegistryState.after {} [some coreReservation, some builtinsReservation]) later key held hheld
  rw [← RegistryState.after_append, List.cons_append, List.cons_append, List.nil_append, ← hstate] at hkept
  exact hkept

theorem Loaded.has {keys : AttributeKeyRegistry} (h : Loaded keys) {key : Str}
    (hkey : ((RegistryState.after {} [some coreReservation, some builtinsReservation]).attributeKeyReservation
      key).isSome = true) : keys.has key = true := by
  obtain ⟨held, hheld⟩ := Option.isSome_iff_exists.1 hkey
  rw [← AttributeKeyRegistry.attributeKeyReservation_isSome, h.reserved hheld]
  rfl

/-- The keys the rules of this package read. -/
def ruleKeys : List Str := [attrScopes, attrPermissions, attrRoles, attrDelegationRange]

theorem Loaded.ruleKeys {keys : AttributeKeyRegistry} (h : Loaded keys) {key : Str} (hkey : key ∈ ruleKeys) :
    keys.has key = true := by
  refine h.has ?_
  have hall : ∀ key ∈ Builtins.ruleKeys,
      ((RegistryState.after {} [some coreReservation, some builtinsReservation]).attributeKeyReservation
        key).isSome = true := by decide +kernel
  exact hall key hkey

/-- The range is this package's, not core's. -/
theorem Loaded.range {keys : AttributeKeyRegistry} (h : Loaded keys) : ∃ held,
    keys.attributeKeyReservation attrDelegationRange = some held ∧ held.owner ≠ coreAttributeKeyOwner := by
  have howner : ((RegistryState.after {} [some coreReservation, some builtinsReservation]).attributeKeyReservation
      attrDelegationRange).map AttributeKeyReservation.owner = some builtinsAttributeKeyOwner := by decide +kernel
  obtain ⟨held, hheld, hmine⟩ := Option.map_eq_some_iff.1 howner
  refine ⟨held, h.reserved hheld, ?_⟩
  rw [hmine]
  decide

/-! ## A request, with and without its context -/

/-- The request without what its caller sent along. -/
def silent (context : CollectorContext) : CollectorContext := { context with requestContext := none }

/-- A collector writes the same without the request context, or nothing. -/
theorem BuiltinCollector.collect_silent (collector : BuiltinCollector) (context : CollectorContext) :
    collector.collect (silent context) = ∅ ∨ collector.collect (silent context) = collector.collect context := by
  cases collector with
  | requestContext self => exact .inl rfl
  | payloadScope self => exact .inr rfl
  | payloadSubjectId => exact .inr rfl
  | staticPermission self => exact .inr rfl
  | staticRole self => exact .inr rfl
  | payloadClaim self => exact .inr rfl
  | delegationRange self => exact .inr rfl

/-- What a collector writes under the reserved keys is the same with and without the request context. -/
theorem BuiltinCollector.restrict_silent {keys : AttributeKeyRegistry} {collector : BuiltinCollector}
    (hchecked : collector.Checked keys) (context : CollectorContext) :
    (collector.collect (silent context)).restrict keys.has = (collector.collect context).restrict keys.has := by
  cases collector with
  | requestContext self =>
    have hempty : (self.collect context).restrict keys.has = ∅ := by
      refine OrderedMap.restrict_eq_empty fun key hkey => ?_
      obtain ⟨value, hvalue⟩ := Option.isSome_iff_exists.1 ((OrderedMap.get?_isSome_iff _ key).2 hkey)
      obtain ⟨mapping, hmapping, rfl, -⟩ := RequestContextAttributeCollector.collect_typed hvalue
      exact hchecked mapping hmapping
    exact hempty.symm
  | payloadScope self => rfl
  | payloadSubjectId => rfl
  | staticPermission self => rfl
  | staticRole self => rfl
  | payloadClaim self => rfl
  | delegationRange self => rfl

end PolicyVerifier.Builtins
