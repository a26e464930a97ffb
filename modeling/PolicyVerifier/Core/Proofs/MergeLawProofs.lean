import PolicyVerifier.Core.Proofs.MergeProofs

/-!
# The law of the merge

What the streaming pass comes to, said of each key by what the maps write to it, in their order: two
different values that are not lists refuse the merge, a value that is not a list stands when it was
written last, and lists are joined from the last such value on.
-/

namespace PolicyVerifier.Core

open Js

/-! ## What is written to a key -/

/-- What a list of entries writes to a key, in order. -/
def writesOf (key : Str) (es : List (Str × Value)) : List Value :=
  es.filterMap fun e => if e.1 = key then some e.2 else none

/-- What the maps write to a key, in their order. -/
def writes (key : Str) (maps : List Attributes) : List Value := maps.filterMap (OrderedMap.get? · key)

/-- The values written that are not lists. -/
def scalars (ws : List Value) : List Value := ws.filter fun v => !v.isArray

/-- The lists written after the last value that is not one. -/
def trailing (ws : List Value) : List (List Value) :=
  (ws.reverse.takeWhile Value.isArray).reverse.filterMap Value.items?

/-- What a key comes to: nothing was written, or the value written last, or the lists since the last
value that is not one, in one. -/
def mergedValue (ws : List Value) : Option Value :=
  match ws.getLast? with
  | none => none
  | some v => if v.isArray then some (Value.list (trailing ws).flatten) else some v

/-- Two writes of a key that no value can stand for. -/
def Conflict (ws : List Value) : Prop := ∃ v ∈ ws, ∃ w ∈ ws, v.isArray = false ∧ w.isArray = false ∧ v.is w = false

theorem writesOf_concat (key : Str) (es : List (Str × Value)) (e : Str × Value) :
    writesOf key (es ++ [e]) = if e.1 = key then writesOf key es ++ [e.2] else writesOf key es := by
  rw [writesOf, List.filterMap_append]
  split
  · rename_i h
    simp [h, writesOf]
  · rename_i h
    simp [h, writesOf]

/-- A map writes a key once. -/
theorem writesOf_entries (key : Str) (map : Attributes) :
    writesOf key map.entries = (map.get? key).toList := by
  obtain ⟨es, hnodup⟩ := map
  show writesOf key es = (OrderedMap.lookup key es).toList
  induction es with
  | nil => rfl
  | cons e es ih =>
    rw [List.map_cons, List.nodup_cons] at hnodup
    rw [OrderedMap.lookup]
    split
    · rename_i hkey
      have hlater : writesOf key es = [] := by
        rw [ih hnodup.2, (OrderedMap.lookup_eq_none_iff key es).2 (hkey ▸ hnodup.1)]
        rfl
      rw [writesOf, List.filterMap_cons_some (by rw [if_pos hkey]), ← writesOf, hlater]
      rfl
    · rename_i hkey
      rw [writesOf, List.filterMap_cons_none (by rw [if_neg hkey]), ← writesOf, ih hnodup.2]

theorem writesOf_flatMap (key : Str) (maps : List Attributes) :
    writesOf key (maps.flatMap OrderedMap.entries) = writes key maps := by
  induction maps with
  | nil => rfl
  | cons map maps ih =>
    rw [List.flatMap_cons, writesOf, List.filterMap_append, ← writesOf, ← writesOf, ih,
      writesOf_entries, writes, writes, List.filterMap_cons]
    cases map.get? key with
    | none => rfl
    | some v => rfl

theorem trailing_concat_list (ws : List Value) {v : Value} {items : List Value}
    (h : v.items? = some items) : trailing (ws ++ [v]) = trailing ws ++ [items] := by
  have harray : v.isArray = true := by rw [Value.isArray, h]; rfl
  rw [trailing, List.reverse_concat, List.takeWhile_cons_of_pos harray, List.reverse_cons,
    List.filterMap_append]
  simp [trailing, h]

theorem trailing_concat_scalar (ws : List Value) {v : Value} (h : v.items? = none) :
    trailing (ws ++ [v]) = [] := by
  have harray : ¬ v.isArray = true := by rw [Value.isArray, h]; simp
  rw [trailing, List.reverse_concat, List.takeWhile_cons_of_neg harray]
  rfl

theorem scalars_concat (ws : List Value) (v : Value) :
    scalars (ws ++ [v]) = if v.isArray then scalars ws else scalars ws ++ [v] := by
  rw [scalars, List.filter_append]
  cases hv : v.isArray with
  | true => simp [scalars, hv]
  | false => simp [scalars, hv]

theorem conflict_iff (ws : List Value) :
    Conflict ws ↔ ∃ v ∈ scalars ws, ∃ w ∈ scalars ws, v ≠ w := by
  have hmem : ∀ v, v ∈ scalars ws ↔ v ∈ ws ∧ v.isArray = false := by
    intro v
    rw [scalars, List.mem_filter, Bool.not_eq_true']
  constructor
  · rintro ⟨v, hv, w, hw, hscalar, hscalar', hdiffer⟩
    refine ⟨v, (hmem v).2 ⟨hv, hscalar⟩, w, (hmem w).2 ⟨hw, hscalar'⟩, fun heq => ?_⟩
    rw [(Value.is_iff v w).2 heq] at hdiffer
    exact absurd hdiffer (by simp)
  · rintro ⟨v, hv, w, hw, hdiffer⟩
    obtain ⟨hv, hscalar⟩ := (hmem v).1 hv
    obtain ⟨hw, hscalar'⟩ := (hmem w).1 hw
    exact ⟨v, hv, w, hw, hscalar, hscalar', Bool.eq_false_iff.2 fun h => hdiffer ((Value.is_iff v w).1 h)⟩

/-! ## The pass -/

/-- The merge under way, after a list of entries no two of which conflict. -/
structure Passed (m : Merging) (es : List (Str × Value)) : Prop where
  merged : ∀ key, m.merged.get? key = (scalars (writesOf key es)).getLast?
  fragments : ∀ key, (m.fragments.get? key).getD [] = trailing (writesOf key es)
  held : ∀ key parts, m.fragments.get? key = some parts → parts ≠ []
  agree : ∀ key, ¬ Conflict (writesOf key es)

theorem Conflict.concat {ws : List Value} (h : Conflict ws) (v : Value) : Conflict (ws ++ [v]) := by
  obtain ⟨x, hx, y, hy, hdiffer⟩ := h
  exact ⟨x, List.mem_append_left _ hx, y, List.mem_append_left _ hy, hdiffer⟩

/-- A list conflicts with nothing. -/
theorem conflict_concat_list {ws : List Value} {v : Value} (h : v.isArray = true) :
    Conflict (ws ++ [v]) ↔ Conflict ws := by
  rw [conflict_iff, conflict_iff, scalars_concat, if_pos h]

/-- Where nothing conflicted yet, a value that is not a list conflicts with the last such value only. -/
theorem conflict_concat_scalar {ws : List Value} (hagree : ¬ Conflict ws) {v : Value}
    (h : v.isArray = false) :
    Conflict (ws ++ [v]) ↔ ∃ w, (scalars ws).getLast? = some w ∧ w ≠ v := by
  rw [conflict_iff] at hagree
  have hsame : ∀ x ∈ scalars ws, ∀ y ∈ scalars ws, x = y := by
    intro x hx y hy
    by_contra hne
    exact hagree ⟨x, hx, y, hy, hne⟩
  rw [conflict_iff, scalars_concat, h, if_neg (by simp)]
  constructor
  · rintro ⟨x, hx, y, hy, hne⟩
    have hlast : ∃ w, (scalars ws).getLast? = some w ∧ w ∈ scalars ws := by
      cases hget : (scalars ws).getLast? with
      | none =>
        -- then both values are the one just written
        rw [List.getLast?_eq_none_iff.1 hget, List.nil_append, List.mem_singleton] at hx hy
        exact absurd (hx.trans hy.symm) hne
      | some w => exact ⟨w, rfl, List.mem_of_getLast? hget⟩
    obtain ⟨w, hw, hmem⟩ := hlast
    refine ⟨w, hw, fun hwv => hne ?_⟩
    have hall : ∀ z ∈ scalars ws ++ [v], z = v := by
      intro z hz
      rcases List.mem_append.1 hz with hz | hz
      · exact (hsame z hz w hmem).trans hwv
      · exact List.mem_singleton.1 hz
    exact (hall x hx).trans (hall y hy).symm
  · rintro ⟨w, hw, hne⟩
    exact ⟨w, List.mem_append_left _ (List.mem_of_getLast? hw), v, by simp, hne⟩

theorem Passed.start : Passed {} [] :=
  ⟨fun _ => rfl, fun _ => rfl, fun _ _ h => absurd h (by simp), fun _ ⟨_, hv, _⟩ => absurd hv (by simp [writesOf])⟩

/-- A list is kept aside. -/
theorem Passed.list {m : Merging} {es : List (Str × Value)} (h : Passed m es) {e : Str × Value}
    {items : List Value} (hitems : e.2.items? = some items) :
    ∃ m', mergeEntry m e = .ok m' ∧ Passed m' (es ++ [e]) := by
  have harray : e.2.isArray = true := by rw [Value.isArray, hitems]; rfl
  have hentry : mergeEntry m e = .ok { m with
      fragments := m.fragments.set e.1 ((m.fragments.get? e.1).getD [] ++ [items]) } := by
    simp only [mergeEntry, hitems]
  refine ⟨_, hentry, fun key => ?_, fun key => ?_, fun key parts => ?_, fun key => ?_⟩
  · rw [writesOf_concat, h.merged key]
    split
    · rw [scalars_concat, if_pos harray]
    · rfl
  · rw [writesOf_concat, OrderedMap.get?_set]
    split
    · rename_i hkey
      rw [Option.getD_some, hkey, h.fragments key, trailing_concat_list _ hitems]
    · exact h.fragments key
  · rw [OrderedMap.get?_set]
    split
    · rintro ⟨⟩
      simp
    · exact h.held key parts
  · rw [writesOf_concat]
    split
    · rw [conflict_concat_list harray]
      exact h.agree key
    · exact h.agree key

/-- A value that is not a list takes the place of the lists before it. -/
theorem Passed.scalar {m : Merging} {es : List (Str × Value)} (h : Passed m es) {e : Str × Value}
    (hitems : e.2.items? = none) (hagree : ¬ Conflict (writesOf e.1 es ++ [e.2])) :
    Passed { merged := m.merged.set e.1 e.2, fragments := m.fragments.erase e.1 } (es ++ [e]) := by
  have harray : ¬ e.2.isArray = true := by rw [Value.isArray, hitems]; simp
  refine ⟨fun key => ?_, fun key => ?_, fun key parts => ?_, fun key => ?_⟩
  · rw [writesOf_concat, OrderedMap.get?_set]
    split
    · rw [scalars_concat, if_neg harray, List.getLast?_concat]
    · exact h.merged key
  · rw [writesOf_concat, OrderedMap.get?_erase]
    split
    · rw [trailing_concat_scalar _ hitems]
      rfl
    · exact h.fragments key
  · rw [OrderedMap.get?_erase]
    split
    · exact fun hnone => absurd hnone (by simp)
    · exact h.held key parts
  · rw [writesOf_concat]
    split
    · rename_i hkey
      exact hkey ▸ hagree
    · exact h.agree key

/-- One entry: it is refused exactly when it conflicts with what was written to its key. -/
theorem Passed.entry {m : Merging} {es : List (Str × Value)} (h : Passed m es) (e : Str × Value) :
    (∃ m', mergeEntry m e = .ok m' ∧ Passed m' (es ++ [e])) ∨
      mergeEntry m e = .error (.attributeConflict .merge e.1) ∧ Conflict (writesOf e.1 (es ++ [e])) := by
  cases hitems : e.2.items? with
  | some items => exact Or.inl (h.list hitems)
  | none =>
    have harray : e.2.isArray = false := by rw [Value.isArray, hitems]; rfl
    have hconflict := conflict_concat_scalar (h.agree e.1) harray
    rw [← h.merged e.1] at hconflict
    cases hwritten : m.merged.get? e.1 with
    | none =>
      have hagree : ¬ Conflict (writesOf e.1 es ++ [e.2]) := by
        rw [hconflict, hwritten]
        simp
      exact Or.inl ⟨_, by simp only [mergeEntry, hitems, hwritten], h.scalar hitems hagree⟩
    | some written =>
      cases his : written.is e.2 with
      | true =>
        have hagree : ¬ Conflict (writesOf e.1 es ++ [e.2]) := by
          rw [hconflict, hwritten]
          rintro ⟨w, hw, hne⟩
          obtain rfl := Option.some.inj hw
          exact hne ((Value.is_iff _ _).1 his)
        exact Or.inl ⟨_, by simp only [mergeEntry, hitems, hwritten, his, if_true],
          h.scalar hitems hagree⟩
      | false =>
        refine Or.inr ⟨by simp [mergeEntry, hitems, hwritten, his], ?_⟩
        rw [writesOf_concat, if_pos rfl, hconflict, hwritten]
        refine ⟨written, rfl, fun heq => ?_⟩
        rw [(Value.is_iff _ _).2 heq] at his
        exact absurd his (by simp)

/-- The whole pass goes through, or stops at a key that conflicts. -/
theorem pass (es : List (Str × Value)) :
    (∃ m, es.foldlM mergeEntry {} = .ok m ∧ Passed m es) ∨
      ∃ key, es.foldlM mergeEntry {} = .error (.attributeConflict .merge key) ∧
        Conflict (writesOf key es) := by
  induction es using List.reverseRecOn with
  | nil => exact Or.inl ⟨{}, rfl, .start⟩
  | append_singleton es e ih =>
    rw [List.foldlM_append]
    rcases ih with ⟨m, hm, hpassed⟩ | ⟨key, hm, hconflict⟩
    · rw [hm]
      show (∃ m', [e].foldlM mergeEntry m = _ ∧ _) ∨ ∃ key, [e].foldlM mergeEntry m = _ ∧ _
      rw [ExceptFold.foldlM_singleton]
      rcases hpassed.entry e with hok | ⟨herror, hconflict⟩
      · exact Or.inl hok
      · exact Or.inr ⟨e.1, herror, hconflict⟩
    · refine Or.inr ⟨key, by rw [hm]; rfl, ?_⟩
      rw [writesOf_concat]
      split
      · exact hconflict.concat e.2
      · exact hconflict

/-! ## What the pass leaves -/

/-- The lists stand where there are any, and the last value that is not one where there are none. -/
theorem mergedValue_eq (ws : List Value) : mergedValue ws =
    (if trailing ws = [] then none else some (Value.list (trailing ws).flatten)).or (scalars ws).getLast? := by
  induction ws using List.reverseRecOn with
  | nil => rfl
  | append_singleton ws v _ =>
    rw [mergedValue, List.getLast?_concat]
    cases hitems : v.items? with
    | some items =>
      have harray : v.isArray = true := by rw [Value.isArray, hitems]; rfl
      rw [trailing_concat_list ws hitems, if_neg (by simp)]
      simp [harray]
    | none =>
      have harray : v.isArray = false := by rw [Value.isArray, hitems]; rfl
      rw [trailing_concat_scalar ws hitems, if_pos rfl, scalars_concat]
      simp [harray]

/-- The value a key holds once the lists kept aside are written. -/
theorem Passed.value {m : Merging} {es : List (Str × Value)} (h : Passed m es) (key : Str) :
    (m.fragments.entries.foldl (fun merged e => merged.set e.1 (Value.list e.2.flatten)) m.merged).get? key =
      mergedValue (writesOf key es) := by
  rw [OrderedMap.get?_foldl_set_entries fun parts : List (List Value) => Value.list parts.flatten, mergedValue_eq,
    h.merged key, ← h.fragments key]
  cases hget : m.fragments.get? key with
  | none => rfl
  | some parts =>
    rw [Option.getD_some, if_neg (h.held key parts hget)]
    rfl

/-- Two of the maps hold values of one key that are not lists, and are not the same. -/
def MapsConflict (maps : List Attributes) : Prop :=
  ∃ key, ∃ m ∈ maps, ∃ m' ∈ maps, ∃ v w, m.get? key = some v ∧ m'.get? key = some w ∧
    v.isArray = false ∧ w.isArray = false ∧ v.is w = false

theorem mapsConflict_iff (maps : List Attributes) :
    MapsConflict maps ↔ ∃ key, Conflict (writes key maps) := by
  refine exists_congr fun key => ?_
  have hmem : ∀ v, v ∈ writes key maps ↔ ∃ m ∈ maps, m.get? key = some v := by
    intro v
    rw [writes, List.mem_filterMap]
  constructor
  · rintro ⟨m, hm, m', hm', v, w, hv, hw, hdiffer⟩
    exact ⟨v, (hmem v).2 ⟨m, hm, hv⟩, w, (hmem w).2 ⟨m', hm', hw⟩, hdiffer⟩
  · rintro ⟨v, hv, w, hw, hdiffer⟩
    obtain ⟨m, hm, hv⟩ := (hmem v).1 hv
    obtain ⟨m', hm', hw⟩ := (hmem w).1 hw
    exact ⟨m, hm, m', hm', v, w, hv, hw, hdiffer⟩

/-- The order of the maps has no part in a conflict. -/
theorem MapsConflict.perm {maps maps' : List Attributes} (h : maps.Perm maps') :
    MapsConflict maps ↔ MapsConflict maps' := by
  simp only [MapsConflict, h.mem_iff]

/-- What the merge makes of a list of maps. -/
structure MergeLaw (maps : List Attributes) : Prop where
  /-- It is refused exactly when two of the maps disagree on a value that is not a list. -/
  refused : (∃ key, merge maps = .error (.attributeConflict .merge key)) ↔ MapsConflict maps
  /-- Otherwise each key holds what its writes come to, and there is no other way to fail. -/
  merged : ¬ MapsConflict maps → ∃ attrs, merge maps = .ok attrs ∧
    ∀ key, attrs.get? key = mergedValue (writes key maps)
  /-- Whether it succeeds does not depend on the order of the maps. -/
  perm : ∀ maps', maps.Perm maps' → ((∃ attrs, merge maps = .ok attrs) ↔ ∃ attrs, merge maps' = .ok attrs)

theorem merge_cases (maps : List Attributes) :
    (∃ attrs, merge maps = .ok attrs ∧ ¬ MapsConflict maps ∧
        ∀ key, attrs.get? key = mergedValue (writes key maps)) ∨
      ∃ key, merge maps = .error (.attributeConflict .merge key) ∧ MapsConflict maps := by
  rw [merge_eq, mapsConflict_iff]
  rcases pass (maps.flatMap OrderedMap.entries) with ⟨m, hm, hpassed⟩ | ⟨key, hm, hconflict⟩
  · refine Or.inl ⟨_, by rw [hm]; rfl, ?_, fun key => ?_⟩
    · rintro ⟨key, hconflict⟩
      rw [← writesOf_flatMap] at hconflict
      exact hpassed.agree key hconflict
    · rw [hpassed.value, writesOf_flatMap]
  · refine Or.inr ⟨key, by rw [hm]; rfl, key, ?_⟩
    rw [← writesOf_flatMap]
    exact hconflict

/-- The streaming pass comes to one law, whatever the order of values and lists across the maps. -/
theorem merge_law (maps : List Attributes) : MergeLaw maps := by
  have hok : ∀ ms, (∃ attrs, merge ms = .ok attrs) ↔ ¬ MapsConflict ms := by
    intro ms
    rcases merge_cases ms with ⟨attrs, hattrs, hagree, -⟩ | ⟨key, herror, hconflict⟩
    · exact iff_of_true ⟨attrs, hattrs⟩ hagree
    · refine iff_of_false ?_ (not_not.2 hconflict)
      rintro ⟨attrs, hattrs⟩
      exact absurd (herror.symm.trans hattrs) (by simp)
  refine ⟨?_, fun hagree => ?_, fun maps' hperm => ?_⟩
  · rcases merge_cases maps with ⟨attrs, hattrs, hagree, -⟩ | ⟨key, herror, hconflict⟩
    · refine iff_of_false ?_ hagree
      rintro ⟨key, herror⟩
      exact absurd (hattrs.symm.trans herror) (by simp)
    · exact iff_of_true ⟨key, herror⟩ hconflict
  · rcases merge_cases maps with ⟨attrs, hattrs, -, hvalues⟩ | ⟨key, -, hconflict⟩
    · exact ⟨attrs, hattrs, hvalues⟩
    · exact absurd hconflict hagree
  · rw [hok, hok, MapsConflict.perm hperm]

/-! ## Maps that do not conflict -/

/-- The key a merge stops at is one two of the maps disagree on. -/
theorem conflict_of_merge_error {maps : List Attributes} {key : Str}
    (h : merge maps = .error (.attributeConflict .merge key)) : Conflict (writes key maps) := by
  rw [merge_eq] at h
  rcases pass (maps.flatMap OrderedMap.entries) with ⟨m, hm, -⟩ | ⟨key', hm, hconflict⟩
  · rw [hm] at h
    exact absurd h (by simp [Except.map])
  · rw [hm] at h
    obtain ⟨-, rfl⟩ := Thrown.attributeConflict.inj (Except.error.inj h)
    rw [writesOf_flatMap] at hconflict
    exact hconflict

/-- Fewer writes conflict less: where each map of the second list is empty or that of the first, the second goes
through when the first does. -/
theorem merge_of_fewer {maps fewer : List Attributes} (hfewer : ∀ map ∈ fewer, map = ∅ ∨ map ∈ maps)
    {attrs : Attributes} (h : merge maps = .ok attrs) : ∃ attrs', merge fewer = .ok attrs' := by
  rcases merge_cases maps with ⟨_, -, hagree, -⟩ | ⟨key, herror, -⟩
  · rcases merge_cases fewer with ⟨attrs', hattrs', -, -⟩ | ⟨key, -, hconflict⟩
    · exact ⟨attrs', hattrs'⟩
    · obtain ⟨key, m, hm, m', hm', v, w, hv, hw, hdiffer⟩ := hconflict
      have hmem : ∀ map ∈ fewer, ∀ value, map.get? key = some value → map ∈ maps := by
        intro map hmap value hget
        rcases hfewer map hmap with rfl | hmap
        · exact absurd hget (by simp)
        · exact hmap
      exact absurd ⟨key, m, hmem m hm v hv, m', hmem m' hm' w hw, v, w, hv, hw, hdiffer⟩ hagree
  · exact absurd (herror.symm.trans h) (by simp)

/-- Maps that agree on the kept keys are merged to the same on them. -/
theorem merged_same {keep : Str → Bool} {maps maps' : List Attributes}
    (hsame : maps.map (OrderedMap.restrict keep) = maps'.map (OrderedMap.restrict keep)) {attrs attrs' : Attributes}
    (h : merge maps = .ok attrs) (h' : merge maps' = .ok attrs') {key : Str} (hkey : keep key = true) :
    attrs.get? key = attrs'.get? key := by
  have hkept : merge (maps.map (OrderedMap.restrict keep)) = .ok (attrs.restrict keep) := merge_restrict h
  rw [hsame, merge_restrict h'] at hkept
  have hread := congrArg (OrderedMap.get? · key) (Except.ok.inj hkept)
  simp only [OrderedMap.get?_restrict, hkey, if_true] at hread
  exact hread.symm

/-- They conflict on a kept key both or neither. -/
theorem conflict_same {keep : Str → Bool} {maps maps' : List Attributes}
    (hsame : maps.map (OrderedMap.restrict keep) = maps'.map (OrderedMap.restrict keep)) {key : Str}
    (hkey : keep key = true) : writes key maps = writes key maps' := by
  have hwrites : ∀ ms : List Attributes, writes key ms = writes key (ms.map (OrderedMap.restrict keep)) := by
    intro ms
    rw [writes, writes, List.filterMap_map]
    refine List.filterMap_congr fun map _ => ?_
    rw [Function.comp_apply, OrderedMap.get?_restrict, if_pos hkey]
  rw [hwrites maps, hsame, ← hwrites maps']

end PolicyVerifier.Core
