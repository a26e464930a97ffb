import PolicyVerifier.Cedar.Proofs.SharedEntityProofs
import PolicyVerifier.Lib.DepthFirst

/-!
# What a request holds, and its cycles

`refuseCycles` is the depth-first search over the parents that are entries: every visit is a finite run of
it, so that it ends on every list, and it refuses exactly the lists with an entity that is its own ancestor.
What `requestEntities` returns has one entry for each entity it describes.
-/

namespace PolicyVerifier.Cedar

open Js PolicyVerifier.Core Relation DepthFirst

/-! ## The search -/

section Search

variable {byKey : OrderedMap Str CedarEntity}

/-- The entries among an entity's parents. -/
def successors (byKey : OrderedMap Str CedarEntity) (key : Str) : List Str :=
  match byKey.get? key with
  | some entity => (entity.parents.map uidKey).filter byKey.has
  | none => []

/-- What a visit has open, and what it is done with. -/
def openedAt (state : OrderedMap Str Visit) : Set Str := { key | state.get? key = some .opened }

def doneAt (state : OrderedMap Str Visit) : Set Str := { key | state.get? key = some .done }

/-- The entries that have not been visited. -/
def unmarked (byKey : OrderedMap Str CedarEntity) (state : OrderedMap Str Visit) : Nat :=
  (byKey.keys.filter fun key => (state.get? key).isNone).length

/-- A visit of a key: of the entry it names, if it names one. -/
def visitKey (byKey : OrderedMap Str CedarEntity) (fuel : Nat) (state : OrderedMap Str Visit) (key : Str) :
    Except CedarInputError (OrderedMap Str Visit) :=
  match byKey.get? key with
  | some entity => visit byKey fuel state key entity
  | none => .ok state

theorem foldlM_visitKey_filter (fuel : Nat) (keys : List Str) (state : OrderedMap Str Visit) :
    (keys.filter byKey.has).foldlM (visitKey byKey fuel) state = keys.foldlM (visitKey byKey fuel) state := by
  induction keys generalizing state with
  | nil => rfl
  | cons key keys ih =>
    cases hentry : byKey.get? key with
    | some entity =>
      rw [List.filter_cons_of_pos (by rw [OrderedMap.has, hentry]; rfl), List.foldlM_cons, List.foldlM_cons]
      exact congrArg _ (funext ih)
    | none =>
      rw [List.filter_cons_of_neg (by rw [OrderedMap.has, hentry]; simp), ih]
      exact (ExceptFold.foldlM_cons_ok (by rw [visitKey, hentry])).symm

/-- The parents of an entity, visited. -/
theorem foldlM_parents {key : Str} {entity : CedarEntity} (h : byKey.get? key = some entity) (fuel : Nat)
    (state : OrderedMap Str Visit) :
    entity.parents.foldlM (fun state parent =>
        match byKey.get? (uidKey parent) with
        | some next => visit byKey fuel state (uidKey parent) next
        | none => .ok state) state =
      (successors byKey key).foldlM (visitKey byKey fuel) state := by
  simp only [successors, h]
  rw [foldlM_visitKey_filter, List.foldlM_map]
  rfl

theorem openedAt_open (state : OrderedMap Str Visit) (key : Str) :
    openedAt (state.set key .opened) = insert key (openedAt state) := by
  ext k
  simp only [openedAt, Set.mem_ofPred_eq, Set.mem_insert_iff, OrderedMap.get?_set]
  split
  · rename_i h
    simp [h]
  · rename_i h
    simp [Ne.symm h]

theorem doneAt_open {state : OrderedMap Str Visit} {key : Str} (h : state.get? key = none) :
    doneAt (state.set key .opened) = doneAt state := by
  ext k
  simp only [doneAt, Set.mem_ofPred_eq, OrderedMap.get?_set]
  split
  · rename_i hk
    simp [← hk, h]
  · rfl

theorem doneAt_close (state : OrderedMap Str Visit) (key : Str) :
    doneAt (state.set key .done) = insert key (doneAt state) := by
  ext k
  simp only [doneAt, Set.mem_ofPred_eq, Set.mem_insert_iff, OrderedMap.get?_set]
  split
  · rename_i h
    simp [h]
  · rename_i h
    simp [Ne.symm h]

theorem openedAt_close {state state' : OrderedMap Str Visit} {key : Str} (hnew : key ∉ openedAt state)
    (h : openedAt state' = insert key (openedAt state)) :
    openedAt (state'.set key .done) = openedAt state := by
  ext k
  have hk : k ∈ openedAt state' ↔ k ∈ insert key (openedAt state) := by rw [h]
  simp only [openedAt, Set.mem_ofPred_eq, Set.mem_insert_iff, OrderedMap.get?_set] at hk hnew ⊢
  split
  · rename_i heq
    subst heq
    simpa using hnew
  · rename_i heq
    rw [hk, or_iff_right (Ne.symm heq)]

/-- Opening an entry leaves fewer that have not been visited. -/
theorem unmarked_open {state : OrderedMap Str Visit} {key : Str} (mark : Visit)
    (hentry : byKey.has key = true) (h : state.get? key = none) :
    unmarked byKey (state.set key mark) < unmarked byKey state := by
  have hkey : key ∈ byKey.keys := (byKey.get?_isSome_iff key).1 hentry
  have hothers : (byKey.keys.filter fun k => ((state.set key mark).get? k).isNone) =
      (byKey.keys.filter fun k => (state.get? k).isNone).filter fun k => decide (k ≠ key) := by
    rw [List.filter_filter]
    refine List.filter_congr fun k _ => ?_
    rw [OrderedMap.get?_set]
    split
    · rename_i hk
      simp [hk]
    · rename_i hk
      simp [Ne.symm hk]
  rw [unmarked, unmarked, hothers, List.length_filter_lt_length_iff_exists]
  exact ⟨key, List.mem_filter.2 ⟨hkey, by simp [h]⟩, by simp⟩

theorem unmarked_mono {state state' : OrderedMap Str Visit}
    (h : ∀ key, state.get? key ≠ none → state'.get? key ≠ none) :
    unmarked byKey state' ≤ unmarked byKey state := by
  refine List.Sublist.length_le (List.monotone_filter_right _ fun key hkey => ?_)
  by_contra hmarked
  exact h key (by simpa using hmarked) (by simpa using hkey)

/-- What a list of visits comes to, as a run of the search. -/
inductive Ran (byKey : OrderedMap Str CedarEntity) (state : OrderedMap Str Visit) (keys : List Str) :
    Except CedarInputError (OrderedMap Str Visit) → Prop where
  | done {state' : OrderedMap Str Visit} (opened : openedAt state' = openedAt state)
      (marked : ∀ key, state.get? key ≠ none → state'.get? key ≠ none) :
      Search (successors byKey) (openedAt state) (doneAt state) keys (some (doneAt state')) →
      Ran byKey state keys (.ok state')
  | cycle : Search (successors byKey) (openedAt state) (doneAt state) keys none →
      Ran byKey state keys (.error .cycle)

/-- A node that was searched is passed over. -/
theorem Ran.searched {state : OrderedMap Str Visit} {key : Str} {keys : List Str}
    {result : Except CedarInputError (OrderedMap Str Visit)} (hmark : state.get? key = some .done)
    (h : Ran byKey state keys result) : Ran byKey state (key :: keys) result := by
  cases h with
  | done hopened hmarked hsearch => exact .done hopened hmarked (.done hmark hsearch)
  | cycle hsearch => exact .cycle (.done hmark hsearch)

/-- What is marked stays so while a new node is opened, searched and closed. -/
theorem marked_close {state state' : OrderedMap Str Visit} {key : Str}
    (hmarked : ∀ k, (state.set key .opened).get? k ≠ none → state'.get? k ≠ none) (k : Str)
    (hk : state.get? k ≠ none) : (state'.set key .done).get? k ≠ none := by
  rw [OrderedMap.get?_set]
  split
  · simp
  · refine hmarked k ?_
    rw [OrderedMap.get?_set]
    split
    · simp
    · exact hk

/-- A new node whose successors lead to no open node is closed, and the search goes on. -/
theorem Ran.closed {state state' : OrderedMap Str Visit} {key : Str} {keys : List Str}
    {result : Except CedarInputError (OrderedMap Str Visit)} (hmark : state.get? key = none)
    (hopened : openedAt state' = openedAt (state.set key .opened))
    (hmarked : ∀ k, (state.set key .opened).get? k ≠ none → state'.get? k ≠ none)
    (hsearch : Search (successors byKey) (openedAt (state.set key .opened)) (doneAt (state.set key .opened))
      (successors byKey key) (some (doneAt state')))
    (h : Ran byKey (state'.set key .done) keys result) : Ran byKey state (key :: keys) result := by
  have hnew : key ∉ openedAt state := fun h => absurd (hmark.symm.trans h) (by simp)
  have hunsearched : key ∉ doneAt state := fun h => absurd (hmark.symm.trans h) (by simp)
  rw [openedAt_open] at hopened
  rw [openedAt_open, doneAt_open hmark] at hsearch
  have hback := openedAt_close hnew hopened
  cases h with
  | done hopened' hmarked' hrest =>
    rw [hback, doneAt_close] at hrest
    exact .done (hopened'.trans hback) (fun k hk => hmarked' k (marked_close hmarked k hk))
      (.finished hnew hunsearched hsearch hrest)
  | cycle hrest =>
    rw [hback, doneAt_close] at hrest
    exact .cycle (.finished hnew hunsearched hsearch hrest)

/-- A new node whose successors lead to an open node ends the search. -/
theorem Ran.cyclic {state : OrderedMap Str Visit} {key : Str} (keys : List Str) (hmark : state.get? key = none)
    (hsearch : Search (successors byKey) (openedAt (state.set key .opened)) (doneAt (state.set key .opened))
      (successors byKey key) none) : Ran byKey state (key :: keys) (.error .cycle) := by
  have hnew : key ∉ openedAt state := fun h => absurd (hmark.symm.trans h) (by simp)
  have hunsearched : key ∉ doneAt state := fun h => absurd (hmark.symm.trans h) (by simp)
  rw [openedAt_open, doneAt_open hmark] at hsearch
  exact .cycle (.refused keys hnew hunsearched hsearch)

/-- With a unit of fuel for each entry that has not been visited, and one more, the visits are a run of the
search: the fuel is never used up. -/
theorem visits_ran {fuel : Nat} {state : OrderedMap Str Visit} {keys : List Str}
    (hfuel : unmarked byKey state < fuel) (hkeys : ∀ key ∈ keys, byKey.has key = true) :
    Ran byKey state keys (keys.foldlM (visitKey byKey fuel) state) := by
  induction fuel generalizing state keys with
  | zero => omega
  | succ fuel ihfuel =>
    induction keys generalizing state with
    | nil => exact .done rfl (fun _ h => h) (.nil _ _)
    | cons key keys ih =>
      have hentry := hkeys key List.mem_cons_self
      have hrest : ∀ k ∈ keys, byKey.has k = true := fun k hk => hkeys k (List.mem_cons_of_mem key hk)
      obtain ⟨entity, hget⟩ := Option.isSome_iff_exists.1 hentry
      have hvisit : visitKey byKey (fuel + 1) state key = visit byKey (fuel + 1) state key entity := by
        rw [visitKey, hget]
      rw [List.foldlM_cons, hvisit]
      cases hmark : state.get? key with
      | some mark =>
        cases mark with
        | done =>
          have hskip : visit byKey (fuel + 1) state key entity = .ok state := by simp only [visit, hmark]
          rw [hskip]
          exact (ih hfuel hrest).searched hmark
        | opened =>
          have hback : visit byKey (fuel + 1) state key entity = .error .cycle := by
            simp only [visit, hmark]
          rw [hback]
          exact .cycle (.opened keys hmark)
      | none =>
        have hopens : visit byKey (fuel + 1) state key entity =
            (successors byKey key).foldlM (visitKey byKey fuel) (state.set key .opened) >>=
              fun state => pure (state.set key .done) := by
          simp only [visit, hmark]
          exact congrArg (· >>= fun state => pure (state.set key Visit.done))
            (foldlM_parents hget fuel (state.set key .opened))
        have hfewer := unmarked_open .opened hentry hmark
        have hbelow : Ran byKey (state.set key .opened) (successors byKey key)
            ((successors byKey key).foldlM (visitKey byKey fuel) (state.set key .opened)) := by
          refine ihfuel (by omega) fun k hk => ?_
          simp only [successors, hget] at hk
          exact (List.mem_filter.1 hk).2
        rw [hopens]
        generalize (successors byKey key).foldlM (visitKey byKey fuel) (state.set key .opened) = below
          at hbelow ⊢
        cases hbelow with
        | cycle hsearch => exact .cyclic keys hmark hsearch
        | done hopened hmarked hsearch =>
          have hran := ih (lt_of_le_of_lt (unmarked_mono (marked_close hmarked)) hfuel) hrest
          exact hran.closed hmark hopened hmarked hsearch

end Search

/-! ## The cycles of a list of entities -/

/-- An entity lists another, an entry or not, among its parents. -/
def Parent (entities : List CedarEntity) (uid parent : CedarEntityUid) : Prop :=
  ∃ entity ∈ entities, entity.uid = uid ∧ parent ∈ entity.parents

/-- Some entity is its own parent, or its own ancestor. -/
def HasCycle (entities : List CedarEntity) : Prop := ∃ uid, TransGen (Parent entities) uid uid

/-- The entries by their keys. -/
def entriesByKey (entities : List CedarEntity) : OrderedMap Str CedarEntity :=
  .ofList (entities.map fun entity => (uidKey entity.uid, entity))

section Cycles

variable {entities : List CedarEntity}

theorem get?_entriesByKey (hdistinct : (entities.map CedarEntity.uid).Nodup) (key : Str)
    (entity : CedarEntity) :
    (entriesByKey entities).get? key = some entity ↔ entity ∈ entities ∧ uidKey entity.uid = key := by
  rw [entriesByKey, OrderedMap.get?_ofList]
  · simp only [List.mem_map, Prod.mk.injEq]
    constructor
    · rintro ⟨e, he, hkey, rfl⟩
      exact ⟨he, hkey⟩
    · rintro ⟨he, hkey⟩
      exact ⟨entity, he, hkey, rfl⟩
  · intro e he e' he' hkey
    obtain ⟨a, ha, rfl⟩ := List.mem_map.1 he
    obtain ⟨b, hb, rfl⟩ := List.mem_map.1 he'
    exact List.inj_on_of_nodup_map hdistinct ha hb (uidKey_inj.1 hkey)

/-- One step of the search is one membership, of an entry in an entry. -/
theorem edge_iff (hdistinct : (entities.map CedarEntity.uid).Nodup) {uid parent : CedarEntityUid} :
    Edge (successors (entriesByKey entities)) (uidKey uid) (uidKey parent) ↔
      Parent entities uid parent ∧ ∃ entity ∈ entities, entity.uid = parent := by
  have hget := get?_entriesByKey hdistinct
  have hhas : ∀ u, (entriesByKey entities).has (uidKey u) = true ↔ ∃ entity ∈ entities, entity.uid = u := by
    intro u
    rw [OrderedMap.has, Option.isSome_iff_exists]
    exact exists_congr fun entity => by rw [hget, uidKey_inj]
  rw [Edge, successors, ← hhas]
  cases hentry : (entriesByKey entities).get? (uidKey uid) with
  | none =>
    refine iff_of_false (by simp) ?_
    rintro ⟨⟨entity, hentity, rfl, -⟩, -⟩
    rw [(hget _ entity).2 ⟨hentity, rfl⟩] at hentry
    exact absurd hentry (by simp)
  | some entity =>
    obtain ⟨hentity, hkey⟩ := (hget _ entity).1 hentry
    have huid := uidKey_inj.1 hkey
    rw [List.mem_filter, List.mem_map]
    refine and_congr_left fun _ => ?_
    constructor
    · rintro ⟨p, hp, hpkey⟩
      exact ⟨entity, hentity, huid, uidKey_inj.1 hpkey ▸ hp⟩
    · rintro ⟨e, he, heuid, hp⟩
      obtain rfl := List.inj_on_of_nodup_map hdistinct he hentity (heuid.trans huid.symm)
      exact ⟨parent, hp, rfl⟩

theorem exists_cycle_iff (hdistinct : (entities.map CedarEntity.uid).Nodup) :
    (∃ key, TransGen (Edge (successors (entriesByKey entities))) key key) ↔ HasCycle entities := by
  have hedge : ∀ {key key'}, Edge (successors (entriesByKey entities)) key key' →
      ∃ uid parent, uidKey uid = key ∧ uidKey parent = key' ∧ Parent entities uid parent := by
    intro key key' h
    have hmem := h
    rw [Edge, successors] at hmem
    cases hentry : (entriesByKey entities).get? key with
    | none => simp [hentry] at hmem
    | some entity =>
      simp only [hentry] at hmem
      obtain ⟨parent, -, rfl⟩ := List.mem_map.1 (List.mem_filter.1 hmem).1
      obtain ⟨-, rfl⟩ := (get?_entriesByKey hdistinct key entity).1 hentry
      exact ⟨entity.uid, parent, rfl, rfl, ((edge_iff hdistinct).1 h).1⟩
  constructor
  · rintro ⟨key, hcycle⟩
    have hlift : ∀ {key'}, TransGen (Edge (successors (entriesByKey entities))) key key' →
        ∃ uid parent, uidKey uid = key ∧ uidKey parent = key' ∧ TransGen (Parent entities) uid parent := by
      intro key' h
      induction h with
      | single h =>
        obtain ⟨uid, parent, huid, hparent, h⟩ := hedge h
        exact ⟨uid, parent, huid, hparent, .single h⟩
      | tail _ h ih =>
        obtain ⟨uid, middle, huid, hmiddle, hfirst⟩ := ih
        obtain ⟨middle', parent, hmiddle', hparent, hlast⟩ := hedge h
        obtain rfl := uidKey_inj.1 (hmiddle.trans hmiddle'.symm)
        exact ⟨uid, parent, huid, hparent, hfirst.tail hlast⟩
    obtain ⟨uid, parent, huid, hparent, h⟩ := hlift hcycle
    obtain rfl := uidKey_inj.1 (huid.trans hparent.symm)
    exact ⟨uid, h⟩
  · rintro ⟨uid, hcycle⟩
    -- every entity on the way has parents, so it is an entry
    have hlower : ∀ {parent}, TransGen (Parent entities) uid parent →
        (∃ entity ∈ entities, entity.uid = parent) →
        TransGen (Edge (successors (entriesByKey entities))) (uidKey uid) (uidKey parent) := by
      intro parent h
      induction h with
      | single h => exact fun hentry => .single ((edge_iff hdistinct).2 ⟨h, hentry⟩)
      | tail _ h ih =>
        have hlists := h
        obtain ⟨entity, hentity, hname, -⟩ := hlists
        exact fun hentry => (ih ⟨entity, hentity, hname⟩).tail ((edge_iff hdistinct).2 ⟨h, hentry⟩)
    obtain ⟨parent, ⟨entity, hentity, hname, -⟩, -⟩ := TransGen.head'_iff.1 hcycle
    exact ⟨uidKey uid, hlower hcycle ⟨entity, hentity, hname⟩⟩

/-- `refuseCycles` is a finite run of the search over every entry. -/
theorem refuseCycles_search (entities : List CedarEntity) :
    ∃ found, Search (successors (entriesByKey entities)) ∅ ∅ (entriesByKey entities).keys found ∧
      (found = none ↔ ∃ e, refuseCycles entities = .error e) := by
  set byKey := entriesByKey entities with hbyKey
  have hentries : ∀ es : List (Str × CedarEntity), (∀ e ∈ es, e ∈ byKey.entries) → ∀ fuel state,
      es.foldlM (fun state e => visit byKey fuel state e.1 e.2) state =
        (es.map Prod.fst).foldlM (visitKey byKey fuel) state := by
    intro es hes fuel
    induction es with
    | nil => exact fun _ => rfl
    | cons e es ih =>
      intro state
      have hget : byKey.get? e.1 = some e.2 := (byKey.get?_eq_some_iff e.1 e.2).2 (hes e List.mem_cons_self)
      rw [List.map_cons, List.foldlM_cons, List.foldlM_cons, visitKey, hget]
      exact congrArg _ (funext (ih fun e' he' => hes e' (List.mem_cons_of_mem e he')))
  have hrun : refuseCycles entities =
      byKey.keys.foldlM (visitKey byKey (byKey.entries.length + 1)) ∅ >>= fun _ => pure () := by
    rw [OrderedMap.keys, ← hentries _ fun _ h => h]
    rfl
  have hran : Ran byKey ∅ byKey.keys
      (byKey.keys.foldlM (visitKey byKey (byKey.entries.length + 1)) ∅) := by
    refine visits_ran ?_ fun key hkey => (byKey.get?_isSome_iff key).2 hkey
    have hall : unmarked byKey ∅ ≤ byKey.keys.length := List.length_filter_le _ _
    rw [OrderedMap.keys, List.length_map] at hall
    omega
  have hopened : openedAt ∅ = ∅ := by
    ext key
    simp [openedAt]
  have hdone : doneAt ∅ = ∅ := by
    ext key
    simp [doneAt]
  rw [hrun]
  generalize byKey.keys.foldlM (visitKey byKey (byKey.entries.length + 1)) ∅ = result at hran
  cases hran with
  | @done state _ _ hsearch =>
    rw [hopened, hdone] at hsearch
    refine ⟨_, hsearch, iff_of_false (by simp) ?_⟩
    intro herror
    obtain ⟨e, he⟩ := herror
    exact absurd he (by simp [bind, Except.bind, pure, Except.pure])
  | cycle hsearch =>
    rw [hopened, hdone] at hsearch
    exact ⟨_, hsearch, iff_of_true rfl ⟨.cycle, rfl⟩⟩

/-- It refuses exactly the lists with an entity that is its own parent or its own ancestor. -/
theorem refuseCycles_error_iff (hdistinct : (entities.map CedarEntity.uid).Nodup) :
    (∃ e, refuseCycles entities = .error e) ↔ HasCycle entities := by
  obtain ⟨found, hsearch, hfound⟩ := refuseCycles_search entities
  rw [← hfound, ← exists_cycle_iff hdistinct]
  refine hsearch.none_iff fun key hnext => ?_
  rw [← OrderedMap.get?_isSome_iff, Option.isSome_iff_ne_none]
  intro hnone
  exact hnext (by simp [successors, hnone])

end Cycles

/-! ## What the entries hold -/

/-- What is held of each entity, under the key of its uid, with no parent twice. -/
structure HeldWell (held : OrderedMap Str Held) : Prop where
  uid : ∀ key record, held.get? key = some record → uidKey record.entity.uid = key
  keyed : ∀ key record, held.get? key = some record → record.Keyed
  parents : ∀ key record, held.get? key = some record → record.entity.parents.Nodup

/-- A parent whose key was seen is not listed again. -/
theorem foldl_addParent_nodup {ps : List CedarEntityUid} {seen : Finset Str × List CedarEntityUid}
    {entityType : Str} (htyped : ∀ p ∈ ps, p.type = entityType)
    (hseen : ∀ p ∈ seen.2, p.type = entityType → uidKey p ∈ seen.1) (hnodup : seen.2.Nodup) :
    (ps.foldl addParent seen).2.Nodup := by
  induction ps generalizing seen with
  | nil => exact hnodup
  | cons q ps ih =>
    have hrest : ∀ p ∈ ps, p.type = entityType := fun p hp => htyped p (List.mem_cons_of_mem q hp)
    rw [List.foldl_cons]
    by_cases hq : uidKey q ∈ seen.1
    · rw [addParent, if_pos hq]
      exact ih hrest hseen hnodup
    · rw [addParent, if_neg hq]
      refine ih hrest (fun p hp htype => ?_) ?_
      · rcases List.mem_append.1 hp with hp | hp
        · exact Finset.mem_insert_of_mem (hseen p hp htype)
        · rw [List.mem_singleton.1 hp]
          exact Finset.mem_insert_self _ _
      · refine List.nodup_append.2 ⟨hnodup, List.nodup_singleton q, ?_⟩
        rintro p hp p' hp' rfl
        obtain rfl := List.mem_singleton.1 hp'
        exact hq (hseen p hp (htyped p List.mem_cons_self))

theorem foldl_absorbParents_nodup {es : List (Str × List CedarEntityUid)}
    (htyped : ∀ e ∈ es, ∀ p ∈ e.2, p.type = e.1) {held : Held} (hkeyed : held.Keyed)
    (hnodup : held.entity.parents.Nodup) : (es.foldl absorbParents held).entity.parents.Nodup := by
  induction es generalizing held with
  | nil => exact hnodup
  | cons e es ih =>
    have hfirst := htyped e List.mem_cons_self
    refine ih (fun e' he' => htyped e' (List.mem_cons_of_mem e he')) (absorbParents_takes hkeyed hfirst).keyed ?_
    refine foldl_addParent_nodup hfirst (fun p hp htype => ?_) hnodup
    obtain ⟨keys, hkeys, hmem⟩ := hkeyed.listed p hp
    rw [← htype, hkeys]
    exact hmem

/-- What one role leaves of what is held. -/
theorem reconcile_ok {sharing : SharedEntity} {held held' : OrderedMap Str Held} {c : Contribution}
    {config : EntityMappingConfig} {attrs : Attributes} (hwell : HeldWell held)
    (hsaid : Says c config attrs) (h : reconcile sharing held c = .ok held') :
    ∃ record, held' = held.set (uidKey c.uid) record ∧ HeldWell held' ∧
      record.described = (((held.get? (uidKey c.uid)).map Held.described).getD false || c.described) := by
  have htyped : ∀ e ∈ c.parents.entries, ∀ p ∈ e.2, p.type = e.1 := by
    intro e he p hp
    rw [(hsaid.mem_entries.1 he).2] at hp
    exact (mem_uidsAt.1 hp).1
  -- whatever it is absorbed into, the record keeps to the invariant
  have habsorbed : ∀ record : Held, record.Keyed → record.entity.parents.Nodup →
      uidKey record.entity.uid = uidKey c.uid → held' = held.set (uidKey c.uid) (absorb record c) →
      HeldWell held' ∧ (absorb record c).described = record.described := by
    intro record hkeyed hnodup huid heq
    have htook := absorb_takes hkeyed hsaid
    have hparents : (absorb record c).entity.parents.Nodup :=
      foldl_absorbParents_nodup htyped ⟨hkeyed.listed, hkeyed.kept⟩ hnodup
    refine ⟨⟨fun key r hr => ?_, fun key r hr => ?_, fun key r hr => ?_⟩, htook.described⟩ <;>
      rw [heq, OrderedMap.get?_set] at hr <;> split at hr
    · rename_i hkey
      obtain rfl := Option.some.inj hr
      exact (congrArg uidKey htook.uid).trans (huid.trans hkey)
    · exact hwell.uid key r hr
    · obtain rfl := Option.some.inj hr
      exact htook.keyed
    · exact hwell.keyed key r hr
    · obtain rfl := Option.some.inj hr
      exact hparents
    · exact hwell.parents key r hr
  cases hget : held.get? (uidKey c.uid) with
  | none =>
    simp only [reconcile, hget] at h
    have heq := (Except.ok.inj h).symm
    obtain ⟨hheld, hdescribed⟩ := habsorbed
      { entity := { uid := c.uid }, roles := [c.role], described := c.described }
      ⟨by simp, fun entityType keys hkeys => absurd hkeys (by simp)⟩ List.nodup_nil rfl heq
    exact ⟨_, heq, hheld, hdescribed⟩
  | some record =>
    simp only [reconcile, hget] at h
    split at h
    · exact absurd h (by simp)
    · have heq := (Except.ok.inj h).symm
      have hkeyed := hwell.keyed _ record hget
      obtain ⟨hheld, hdescribed⟩ := habsorbed
        { record with
          roles := record.roles ++ [c.role]
          described := record.described || c.described }
        ⟨hkeyed.listed, hkeyed.kept⟩ (hwell.parents _ record hget) (hwell.uid _ record hget) heq
      exact ⟨_, heq, hheld, hdescribed⟩

theorem HeldWell.empty : HeldWell ∅ := ⟨by simp, by simp, by simp⟩

theorem mem_entitiesOf {held : OrderedMap Str Held} {entity : CedarEntity} :
    entity ∈ entitiesOf held ↔
      ∃ key record, held.get? key = some record ∧ record.described = true ∧ record.entity = entity := by
  rw [entitiesOf, List.mem_map]
  constructor
  · rintro ⟨e, he, rfl⟩
    obtain ⟨hentry, hdescribed⟩ := List.mem_filter.1 he
    exact ⟨e.1, e.2, (held.get?_eq_some_iff e.1 e.2).2 hentry, hdescribed, rfl⟩
  · rintro ⟨key, record, hget, hdescribed, rfl⟩
    exact ⟨(key, record), List.mem_filter.2 ⟨(held.get?_eq_some_iff key record).1 hget, hdescribed⟩, rfl⟩

/-- Two entries are of two entities. -/
theorem HeldWell.distinct {held : OrderedMap Str Held} (h : HeldWell held) :
    ((entitiesOf held).map CedarEntity.uid).Nodup := by
  have hkeys : ((entitiesOf held).map CedarEntity.uid).map uidKey =
      (held.entries.filter fun e => e.2.described).map Prod.fst := by
    rw [entitiesOf, List.map_map, List.map_map]
    refine List.map_congr_left fun e he => ?_
    exact h.uid e.1 e.2 ((held.get?_eq_some_iff e.1 e.2).2 (List.mem_filter.1 he).1)
  refine List.Nodup.of_map uidKey ?_
  rw [hkeys]
  exact held.nodup.sublist (List.filter_sublist.map _)

/-- The shape of a request Cedar takes. -/
structure WellFormed (request : CedarRequest) : Prop where
  principal : ∃ entity ∈ request.entities, entity.uid = request.principal
  resource : ∃ entity ∈ request.entities, entity.uid = request.resource
  action : (∃ entity ∈ request.entities, entity.uid = request.action) → request.action = request.resource
  distinct : (request.entities.map CedarEntity.uid).Nodup
  parents : ∀ entity ∈ request.entities, entity.parents.Nodup
  acyclic : ¬ HasCycle request.entities

section Request

variable {m : ResolvedMapping} {attrs : Attributes} {uids : RequestUids}
  {principal action resource : Contribution}

/-- What is held of the three roles, once they are reconciled. -/
theorem reconciled_held (h : Built m attrs uids principal action resource) {held : OrderedMap Str Held}
    (hheld : reconcile m.sharedEntity (heldBefore principal (undescribed action)) resource = .ok held) :
    HeldWell held ∧ ∀ uid, (∃ record, held.get? (uidKey uid) = some record ∧ record.described = true) ↔
      uid = uids.principal ∨ uid = uids.resource := by
  obtain ⟨hpuid, -, hpdescribed, hpsaid⟩ := contribution_ok h.principal_eq
  obtain ⟨hauid, -, -, hasaid⟩ := contribution_ok h.action_eq
  obtain ⟨hruid, -, hrdescribed, hrsaid⟩ := contribution_ok h.resource_eq
  have hauid : (undescribed action).uid = uids.action := hauid
  have hasaid : Says (undescribed action) {} attrs := ⟨hasaid.attrs_eq, hasaid.names_eq, hasaid.parents_eq⟩
  have hdiffer := requestUids_types h.uids_eq
  -- the principal, then the action, each the first to name its entity
  have hfirst : reconcile m.sharedEntity ∅ principal =
      .ok ((∅ : OrderedMap Str Held).set (uidKey principal.uid) (firstHeld principal)) :=
    reconcile_new (by simp)
  have hsecond : reconcile m.sharedEntity ((∅ : OrderedMap Str Held).set (uidKey principal.uid)
      (firstHeld principal)) (undescribed action) = .ok (heldBefore principal (undescribed action)) := by
    refine reconcile_new ?_
    rw [OrderedMap.get?_set, if_neg, OrderedMap.get?_empty]
    rw [hpuid, hauid]
    exact fun hkey => hdiffer (uidKey_inj.1 hkey)
  obtain ⟨-, -, hwell₁, -⟩ := reconcile_ok .empty hpsaid hfirst
  obtain ⟨-, -, hwell₂, -⟩ := reconcile_ok hwell₁ hasaid hsecond
  obtain ⟨record, rfl, hwell, hdescribed⟩ := reconcile_ok hwell₂ hrsaid hheld
  rw [hrdescribed, Bool.or_true] at hdescribed
  refine ⟨hwell, fun uid => ?_⟩
  rw [OrderedMap.get?_set, hruid]
  by_cases hresource : uids.resource = uid
  · rw [if_pos (congrArg uidKey hresource)]
    exact iff_of_true ⟨record, rfl, hdescribed⟩ (Or.inr hresource.symm)
  · rw [if_neg fun hkey => hresource (uidKey_inj.1 hkey), or_iff_left (Ne.symm hresource), heldBefore,
      OrderedMap.get?_set, OrderedMap.get?_set, hauid, hpuid]
    by_cases haction : uids.action = uid
    · rw [if_pos (congrArg uidKey haction)]
      refine iff_of_false ?_ fun huid => hdiffer (huid.symm.trans haction.symm)
      rintro ⟨r, hr, htrue⟩
      obtain rfl := Option.some.inj hr
      rw [(firstHeld_describes hasaid).2.2] at htrue
      exact absurd htrue (by simp)
    · rw [if_neg fun hkey => haction (uidKey_inj.1 hkey)]
      by_cases hprincipal : uids.principal = uid
      · rw [if_pos (congrArg uidKey hprincipal)]
        exact iff_of_true ⟨_, rfl, (firstHeld_describes hpsaid).2.2.trans hpdescribed⟩ hprincipal.symm
      · rw [if_neg fun hkey => hprincipal (uidKey_inj.1 hkey)]
        exact iff_of_false (by simp) (Ne.symm hprincipal)

/-- Every request that is built is well formed. -/
theorem wellFormed_of_ok {request : CedarRequest} (hok : buildCedarRequest m attrs = .ok request) :
    WellFormed request := by
  obtain ⟨uids, principal, action, resource, held, h, hheld, hcycles, hp, ha, hr, -, hentities⟩ :=
    built_of_ok hok
  obtain ⟨hwell, hdescribed⟩ := reconciled_held h hheld
  have hentry : ∀ uid, (∃ entity ∈ request.entities, entity.uid = uid) ↔
      uid = request.principal ∨ uid = request.resource := by
    intro uid
    rw [hp, hr, hentities, ← hdescribed]
    constructor
    · rintro ⟨entity, hentity, rfl⟩
      obtain ⟨key, record, hget, htrue, rfl⟩ := mem_entitiesOf.1 hentity
      exact ⟨record, (hwell.uid key record hget) ▸ hget, htrue⟩
    · rintro ⟨record, hget, htrue⟩
      exact ⟨record.entity, mem_entitiesOf.2 ⟨_, record, hget, htrue, rfl⟩,
        uidKey_inj.1 (hwell.uid _ record hget)⟩
  have hdistinct : (request.entities.map CedarEntity.uid).Nodup := hentities ▸ hwell.distinct
  refine ⟨(hentry _).2 (Or.inl rfl), (hentry _).2 (Or.inr rfl), fun haction => ?_, hdistinct,
    fun entity hentity => ?_, fun hcycle => ?_⟩
  · refine ((hentry _).1 haction).resolve_left ?_
    rw [hp, ha]
    exact Ne.symm (requestUids_types h.uids_eq)
  · rw [hentities] at hentity
    obtain ⟨key, record, hget, -, rfl⟩ := mem_entitiesOf.1 hentity
    exact hwell.parents key record hget
  · obtain ⟨e, he⟩ := (refuseCycles_error_iff hdistinct).2 hcycle
    rw [hentities, hcycles] at he
    exact absurd he (by simp)

end Request

/-- What is asked of the requests that are built, and of the search for cycles that they pass. -/
structure EntitiesHold : Prop where
  wellFormed : ∀ m attrs request, buildCedarRequest m attrs = .ok request → WellFormed request
  /-- A list of distinct entities is refused exactly when one of them is its own parent or ancestor. -/
  refused : ∀ entities : List CedarEntity, (entities.map CedarEntity.uid).Nodup →
    ((∃ e, refuseCycles entities = .error e) ↔ HasCycle entities)
  /-- On every list the recursion is a finite run of the search, and answers as it ends. -/
  terminates : ∀ entities : List CedarEntity, ∃ found,
    Search (successors (entriesByKey entities)) ∅ ∅ (entriesByKey entities).keys found ∧
      (found = none ↔ ∃ e, refuseCycles entities = .error e)

theorem request_entities_hold : EntitiesHold :=
  ⟨fun _ _ _ => wellFormed_of_ok, fun _ => refuseCycles_error_iff, refuseCycles_search⟩

end PolicyVerifier.Cedar
