import PolicyVerifier.Core.Pipelines
import PolicyVerifier.Lib.ExceptFold

/-!
# What the merge does with a key

The keys of the attribute map are merged apart: what the maps write to other keys is not seen in what
is kept of the result. Lists never conflict, so a key that only lists are written to refuses nothing.
-/

namespace PolicyVerifier.Core

open Js

theorem mapM_id_some {α : Type} (values : List α) : (values.map some).mapM id = some values := by
  induction values with
  | nil => rfl
  | cons v vs ih => simp [List.mapM_cons, ih]

/-- What the attribute pipeline makes of a list with no hole. -/
theorem collectAttributes_whole (maps : List Attributes) :
    collectAttributes (.ok (maps.map some)) = merge maps := by
  simp only [collectAttributes, mapM_id_some]

theorem collectRules_whole (lists : List (List AnyRule)) :
    collectRules (.ok (lists.map some)) = .ok lists.flatten := by
  simp [collectRules]

variable {keep : Str → Bool}

/-- The merge under way, seen at the keys that are kept. -/
def Merging.restrict (keep : Str → Bool) (m : Merging) : Merging :=
  { merged := m.merged.restrict keep, fragments := m.fragments.restrict keep }

theorem mergeEntry_restrict (m : Merging) {entry : Str × Value} (h : keep entry.1 = true) :
    mergeEntry (m.restrict keep) entry = (mergeEntry m entry).map (Merging.restrict keep) := by
  obtain ⟨key, value⟩ := entry
  have hfragments : (m.restrict keep).fragments.get? key = m.fragments.get? key :=
    (OrderedMap.get?_restrict keep m.fragments key).trans (if_pos h)
  have hmerged : (m.restrict keep).merged.get? key = m.merged.get? key :=
    (OrderedMap.get?_restrict keep m.merged key).trans (if_pos h)
  have hset : ∀ v, (m.restrict keep).merged.set key v = (m.merged.set key v).restrict keep :=
    fun v => (OrderedMap.restrict_set h m.merged v).symm
  have herase : (m.restrict keep).fragments.erase key = (m.fragments.erase key).restrict keep :=
    (OrderedMap.restrict_erase keep key m.fragments).symm
  simp only [mergeEntry, hfragments, hmerged, hset, herase]
  cases value.items? with
  | some items =>
    have hparts : ∀ parts, (m.restrict keep).fragments.set key parts =
        (m.fragments.set key parts).restrict keep :=
      fun parts => (OrderedMap.restrict_set h m.fragments parts).symm
    simp only [hparts]
    rfl
  | none =>
    cases m.merged.get? key with
    | none => rfl
    | some written =>
      dsimp only
      split
      · rfl
      · rfl

theorem mergeEntry_restrict_of_not {m m' : Merging} {entry : Str × Value} (h : keep entry.1 = false)
    (hm : mergeEntry m entry = .ok m') : m'.restrict keep = m.restrict keep := by
  obtain ⟨key, value⟩ := entry
  have hwritten : ∀ v, Merging.restrict keep
      { merged := m.merged.set key v, fragments := m.fragments.erase key } = m.restrict keep := by
    intro v
    rw [Merging.restrict, OrderedMap.restrict_set_of_not h, OrderedMap.restrict_erase_of_not h]
    rfl
  simp only [mergeEntry] at hm
  split at hm
  · obtain rfl := Except.ok.inj hm
    rw [Merging.restrict, OrderedMap.restrict_set_of_not h]
    rfl
  · split at hm
    · split at hm
      · obtain rfl := Except.ok.inj hm
        exact hwritten value
      · exact absurd hm (by simp)
    · obtain rfl := Except.ok.inj hm
      exact hwritten value

theorem mergeEntry_list (m : Merging) {entry : Str × Value} (h : entry.2.isArray = true) :
    ∃ m', mergeEntry m entry = .ok m' := by
  obtain ⟨items, hitems⟩ := Option.isSome_iff_exists.1 h
  simp only [mergeEntry, hitems]
  exact ⟨_, rfl⟩

theorem foldlM_restrict {es : List (Str × Value)} {m m' : Merging}
    (h : es.foldlM mergeEntry m = .ok m') :
    (es.filter fun e => keep e.1).foldlM mergeEntry (m.restrict keep) = .ok (m'.restrict keep) := by
  induction es generalizing m with
  | nil =>
    obtain rfl := Except.ok.inj h
    rfl
  | cons e es ih =>
    rw [List.foldlM_cons] at h
    obtain ⟨next, hnext, hrest⟩ := ExceptFold.bind_eq_ok h
    by_cases hkeep : keep e.1 = true
    · rw [List.filter_cons_of_pos (by simpa using hkeep), List.foldlM_cons,
        mergeEntry_restrict m hkeep, hnext]
      exact ih hrest
    · have hdropped : keep e.1 = false := by simpa using hkeep
      rw [List.filter_cons_of_neg (by simpa using hkeep),
        ← mergeEntry_restrict_of_not hdropped hnext]
      exact ih hrest

/-- Where only lists are written outside of what is kept, the merge goes through when what is kept
does. -/
theorem foldlM_of_restrict {es : List (Str × Value)} {m n : Merging}
    (hlists : ∀ e ∈ es, keep e.1 = false → e.2.isArray = true)
    (h : (es.filter fun e => keep e.1).foldlM mergeEntry (m.restrict keep) = .ok n) :
    ∃ m', es.foldlM mergeEntry m = .ok m' := by
  induction es generalizing m with
  | nil => exact ⟨m, rfl⟩
  | cons e es ih =>
    have hrest := fun e' he' => hlists e' (List.mem_cons_of_mem e he')
    by_cases hkeep : keep e.1 = true
    · rw [List.filter_cons_of_pos (by simpa using hkeep), List.foldlM_cons,
        mergeEntry_restrict m hkeep] at h
      obtain ⟨next, hnext, hafter⟩ := ExceptFold.bind_eq_ok h
      cases hentry : mergeEntry m e with
      | error err =>
        rw [hentry] at hnext
        exact absurd hnext (by simp [Except.map])
      | ok m₁ =>
        rw [hentry] at hnext
        obtain rfl := Except.ok.inj hnext
        obtain ⟨m', hm'⟩ := ih hrest hafter
        exact ⟨m', by rw [List.foldlM_cons, hentry]; exact hm'⟩
    · have hdropped : keep e.1 = false := by simpa using hkeep
      obtain ⟨m₁, hentry⟩ := mergeEntry_list m (hlists e List.mem_cons_self hdropped)
      rw [List.filter_cons_of_neg (by simpa using hkeep),
        ← mergeEntry_restrict_of_not hdropped hentry] at h
      obtain ⟨m', hm'⟩ := ih hrest h
      exact ⟨m', by rw [List.foldlM_cons, hentry]; exact hm'⟩

/-! ## The whole merge -/

theorem merge_eq (maps : List Attributes) : merge maps =
    ((maps.flatMap OrderedMap.entries).foldlM mergeEntry {}).map fun m =>
      m.fragments.entries.foldl (fun merged e => merged.set e.1 (Value.list e.2.flatten)) m.merged := by
  unfold merge
  cases (maps.flatMap OrderedMap.entries).foldlM mergeEntry {} with
  | error e => rfl
  | ok m => rfl

theorem merge_ok_iff {maps : List Attributes} : (∃ attrs, merge maps = .ok attrs) ↔
    ∃ m, (maps.flatMap OrderedMap.entries).foldlM mergeEntry {} = .ok m := by
  rw [merge_eq]
  cases (maps.flatMap OrderedMap.entries).foldlM mergeEntry {} with
  | error e => simp [Except.map]
  | ok m => simp [Except.map]

theorem entries_restrict (maps : List Attributes) :
    (maps.map (OrderedMap.restrict keep)).flatMap OrderedMap.entries =
      (maps.flatMap OrderedMap.entries).filter fun e => keep e.1 := by
  rw [List.flatMap_map, List.filter_flatMap]
  rfl

/-- What is kept of the merge is the merge of what is kept. -/
theorem merge_restrict {maps : List Attributes} {attrs : Attributes} (h : merge maps = .ok attrs) :
    merge (maps.map (OrderedMap.restrict keep)) = .ok (attrs.restrict keep) := by
  obtain ⟨m, hm⟩ := merge_ok_iff.1 ⟨attrs, h⟩
  have hfold : ((maps.flatMap OrderedMap.entries).filter fun e => keep e.1).foldlM mergeEntry
      (Merging.restrict keep {}) = .ok (m.restrict keep) := foldlM_restrict hm
  have hstart : Merging.restrict keep {} = {} := rfl
  rw [merge_eq, hm] at h
  obtain rfl := Except.ok.inj h
  rw [merge_eq, entries_restrict, ← hstart, hfold]
  refine congrArg Except.ok ?_
  have hwrite := OrderedMap.restrict_foldl_set keep
    (m.fragments.entries.map fun e => (e.1, Value.list e.2.flatten)) m.merged
  rw [List.filter_map, List.foldl_map, List.foldl_map] at hwrite
  exact hwrite.symm

/-- The merge goes through when what is kept does, where only lists are written outside of it. -/
theorem merge_of_restrict {maps : List Attributes}
    (hlists : ∀ map ∈ maps, ∀ e ∈ map.entries, keep e.1 = false → e.2.isArray = true)
    {kept : Attributes} (h : merge (maps.map (OrderedMap.restrict keep)) = .ok kept) :
    ∃ attrs, merge maps = .ok attrs := by
  obtain ⟨n, hn⟩ := merge_ok_iff.1 ⟨kept, h⟩
  rw [entries_restrict] at hn
  refine merge_ok_iff.2 (foldlM_of_restrict (m := {}) (n := n) (fun e he => ?_) hn)
  obtain ⟨map, hmap, he⟩ := List.mem_flatMap.1 he
  exact hlists map hmap e he

/-- A map with no entry adds nothing. -/
theorem merge_insert_empty (before after : List Attributes) :
    merge (before ++ ∅ :: after) = merge (before ++ after) := by
  have hentries : (before ++ ∅ :: after).flatMap OrderedMap.entries =
      (before ++ after).flatMap OrderedMap.entries := by
    simp [List.flatMap_append]
  rw [merge_eq, merge_eq, hentries]

/-- One more list, under a key of its own: the merge goes through as without it, and holds the list
beside what it holds without it. -/
theorem merge_insert_list {before after : List Attributes} {key : Str} (items : List Value)
    (hother : ∀ map ∈ before ++ after, key ∉ map.keys) :
    (∀ attrs, merge (before ++ after) = .ok attrs → ∃ attrs',
      merge (before ++ OrderedMap.ofList [(key, Value.list items)] :: after) = .ok attrs') ∧
    ∀ attrs', merge (before ++ OrderedMap.ofList [(key, Value.list items)] :: after) = .ok attrs' →
      merge (before ++ after) = .ok (attrs'.erase key) ∧
      attrs'.get? key = some (Value.list items) := by
  set lone : Attributes := OrderedMap.ofList [(key, Value.list items)]
  have hlone : lone.entries = [(key, Value.list items)] := rfl
  set others : Str → Bool := fun k => decide (k ≠ key)
  have hkept : ∀ maps : List Attributes, (∀ map ∈ maps, key ∉ map.keys) →
      maps.map (OrderedMap.restrict others) = maps := by
    intro maps hmaps
    refine (List.map_congr_left fun map hmap => ?_).trans (List.map_id maps)
    exact OrderedMap.restrict_eq_self fun k hk =>
      decide_eq_true (ne_of_mem_of_not_mem hk (hmaps map hmap))
  have hdropped : lone.restrict others = ∅ := by
    refine OrderedMap.restrict_eq_empty fun k hk => ?_
    rw [OrderedMap.keys, hlone] at hk
    rw [List.mem_singleton.1 hk]
    simp [others]
  have hothers : (before ++ lone :: after).map (OrderedMap.restrict others) =
      before ++ ∅ :: after := by
    rw [List.map_append, List.map_cons, hdropped,
      hkept before fun map hmap => hother map (List.mem_append_left _ hmap),
      hkept after fun map hmap => hother map (List.mem_append_right _ hmap)]
  refine ⟨fun attrs hattrs => ?_, fun attrs' hattrs' => ⟨?_, ?_⟩⟩
  · have hrestricted : merge ((before ++ lone :: after).map (OrderedMap.restrict others)) =
        .ok attrs := by rw [hothers, merge_insert_empty, hattrs]
    refine merge_of_restrict (fun map hmap e he hkey => ?_) hrestricted
    have hkey : e.1 = key := by simpa [others] using hkey
    have hmem : key ∈ map.keys := hkey ▸ List.mem_map_of_mem he
    rcases List.mem_append.1 hmap with hmap | hmap
    · exact absurd hmem (hother map (List.mem_append_left _ hmap))
    · rcases List.mem_cons.1 hmap with rfl | hmap
      · rw [hlone] at he
        rw [List.mem_singleton.1 he]
        rfl
      · exact absurd hmem (hother map (List.mem_append_right _ hmap))
  · have hrestricted : merge ((before ++ lone :: after).map (OrderedMap.restrict others)) =
        .ok (attrs'.restrict others) := merge_restrict hattrs'
    rw [hothers, merge_insert_empty] at hrestricted
    exact hrestricted
  · set own : Str → Bool := fun k => decide (k = key)
    have hown : merge ((before ++ lone :: after).map (OrderedMap.restrict own)) =
        .ok (attrs'.restrict own) := merge_restrict hattrs'
    have hnone : ∀ maps : List Attributes, (∀ map ∈ maps, key ∉ map.keys) →
        (maps.flatMap OrderedMap.entries).filter (fun e => own e.1) = [] := by
      intro maps hmaps
      rw [List.filter_eq_nil_iff]
      intro e he
      obtain ⟨map, hmap, he⟩ := List.mem_flatMap.1 he
      have hne := ne_of_mem_of_not_mem (List.mem_map_of_mem (f := Prod.fst) he) (hmaps map hmap)
      simpa [own] using hne
    have honly : ((before ++ lone :: after).flatMap OrderedMap.entries).filter (fun e => own e.1) =
        [(key, Value.list items)] := by
      rw [List.flatMap_append, List.flatMap_cons, List.filter_append, List.filter_append,
        hnone before fun map hmap => hother map (List.mem_append_left _ hmap),
        hnone after fun map hmap => hother map (List.mem_append_right _ hmap), hlone]
      simp [own]
    rw [merge_eq, entries_restrict, honly] at hown
    have hread := congrArg (OrderedMap.get? · key) (Except.ok.inj hown)
    have hkey : own key = true := decide_eq_true rfl
    simp only [OrderedMap.get?_restrict, hkey, if_true] at hread
    rw [← hread]
    show ((∅ : Attributes).set key (Value.list ([] ++ [items]).flatten)).get? key = _
    simp

end PolicyVerifier.Core
