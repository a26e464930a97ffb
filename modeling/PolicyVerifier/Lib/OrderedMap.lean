import Mathlib.Data.List.Nodup
import Mathlib.Data.List.Lookmap
import PolicyVerifier.Lib.ExceptFold

/-!
# Insertion-ordered maps

A map that is iterated in the order its keys were first written: setting a key that is there keeps
its place, a new key goes to the end. The entries carry the proof that no key occurs twice.
-/

/-- A finite map from `κ` to `ν` that remembers the order its keys were first set in. -/
structure OrderedMap (κ ν : Type*) where
  /-- The entries, first-set key first. -/
  entries : List (κ × ν)
  /-- No key has two entries. -/
  nodup : (entries.map Prod.fst).Nodup

namespace OrderedMap

variable {κ ν : Type*}

@[ext] theorem ext {m n : OrderedMap κ ν} (h : m.entries = n.entries) : m = n := by
  cases m; cases n; cases h; rfl

instance [DecidableEq κ] [DecidableEq ν] : DecidableEq (OrderedMap κ ν) := fun m n =>
  decidable_of_iff (m.entries = n.entries) ⟨ext, fun h => h ▸ rfl⟩

/-- The map with no entry. -/
def empty : OrderedMap κ ν := ⟨[], by simp⟩

instance : EmptyCollection (OrderedMap κ ν) := ⟨empty⟩

instance : Inhabited (OrderedMap κ ν) := ⟨empty⟩

/-- The keys, in the order they were first set. -/
def keys (m : OrderedMap κ ν) : List κ := m.entries.map Prod.fst

theorem nodup_keys (m : OrderedMap κ ν) : m.keys.Nodup := m.nodup

variable [DecidableEq κ]

/-- The value a list of entries holds for a key. -/
def lookup (k : κ) : List (κ × ν) → Option ν
  | [] => none
  | (k', v) :: es => if k' = k then some v else lookup k es

/-- The value of a key. -/
def get? (m : OrderedMap κ ν) (k : κ) : Option ν := lookup k m.entries

/-- Whether the key has an entry. -/
def has (m : OrderedMap κ ν) (k : κ) : Bool := (m.get? k).isSome

/-- The entries with the value of `k` replaced in place, or the entry added at the end. -/
def setEntry (k : κ) (v : ν) : List (κ × ν) → List (κ × ν)
  | [] => [(k, v)]
  | (k', v') :: es => if k' = k then (k', v) :: es else (k', v') :: setEntry k v es

theorem mem_keys_setEntry (k : κ) (v : ν) (es : List (κ × ν)) (j : κ) :
    j ∈ (setEntry k v es).map Prod.fst ↔ j = k ∨ j ∈ es.map Prod.fst := by
  induction es with
  | nil => simp [setEntry]
  | cons e es ih =>
    obtain ⟨k', v'⟩ := e
    by_cases h : k' = k
    · subst h; simp [setEntry]
    · simp only [setEntry, h, if_false, List.map_cons, List.mem_cons, ih]
      tauto

theorem nodup_setEntry (k : κ) (v : ν) (es : List (κ × ν)) (h : (es.map Prod.fst).Nodup) :
    ((setEntry k v es).map Prod.fst).Nodup := by
  induction es with
  | nil => simp [setEntry]
  | cons e es ih =>
    obtain ⟨k', v'⟩ := e
    simp only [List.map_cons, List.nodup_cons] at h
    by_cases hk : k' = k
    · simp only [setEntry, hk, if_true, List.map_cons, List.nodup_cons]
      exact hk ▸ h
    · simp only [setEntry, hk, if_false, List.map_cons, List.nodup_cons]
      refine ⟨fun hm => ?_, ih h.2⟩
      rcases (mem_keys_setEntry k v es k').1 hm with hm | hm
      · exact hk hm
      · exact h.1 hm

/-- Sets the value of a key: in its place when it has one, at the end otherwise. -/
def set (m : OrderedMap κ ν) (k : κ) (v : ν) : OrderedMap κ ν :=
  ⟨setEntry k v m.entries, nodup_setEntry k v m.entries m.nodup⟩

/-- Removes a key's entry. -/
def erase (m : OrderedMap κ ν) (k : κ) : OrderedMap κ ν :=
  ⟨m.entries.filter fun e => e.1 ≠ k, (List.filter_sublist.map _).nodup m.nodup⟩

/-- The entries whose key is kept. -/
def restrict (keep : κ → Bool) (m : OrderedMap κ ν) : OrderedMap κ ν :=
  ⟨m.entries.filter fun e => keep e.1, (List.filter_sublist.map _).nodup m.nodup⟩

/-- The map the entries of a list build, each set in turn. -/
def ofList (es : List (κ × ν)) : OrderedMap κ ν := es.foldl (fun m e => m.set e.1 e.2) empty

/-! ## Reading what was written -/

@[simp] theorem get?_empty (k : κ) : (∅ : OrderedMap κ ν).get? k = none := rfl

omit [DecidableEq κ] in
@[simp] theorem entries_empty : (∅ : OrderedMap κ ν).entries = [] := rfl

omit [DecidableEq κ] in
@[simp] theorem keys_empty : (∅ : OrderedMap κ ν).keys = [] := rfl

theorem lookup_setEntry (k : κ) (v : ν) (es : List (κ × ν)) (j : κ) :
    lookup j (setEntry k v es) = if k = j then some v else lookup j es := by
  induction es with
  | nil => simp [setEntry, lookup]
  | cons e es ih =>
    obtain ⟨k', v'⟩ := e
    by_cases h : k' = k
    · subst h
      by_cases hj : k' = j <;> simp [setEntry, lookup, hj]
    · by_cases hj : k' = j
      · subst hj
        simp [setEntry, lookup, h, Ne.symm h]
      · simp [setEntry, lookup, h, hj, ih]

@[simp] theorem get?_set (m : OrderedMap κ ν) (k j : κ) (v : ν) :
    (m.set k v).get? j = if k = j then some v else m.get? j :=
  lookup_setEntry k v m.entries j

theorem lookup_filter (k j : κ) (es : List (κ × ν)) :
    lookup j (es.filter fun e => e.1 ≠ k) = if k = j then none else lookup j es := by
  induction es with
  | nil => simp [lookup]
  | cons e es ih =>
    obtain ⟨k', v'⟩ := e
    by_cases h : k' = k
    · subst h
      by_cases hj : k' = j
      · subst hj; simpa using ih
      · simpa [lookup, hj] using ih
    · by_cases hj : k' = j
      · subst hj
        simp [lookup, h, Ne.symm h]
      · simpa [lookup, h, hj] using ih

@[simp] theorem get?_erase (m : OrderedMap κ ν) (k j : κ) :
    (m.erase k).get? j = if k = j then none else m.get? j :=
  lookup_filter k j m.entries

theorem lookup_restrict (keep : κ → Bool) (k : κ) (es : List (κ × ν)) :
    lookup k (es.filter fun e => keep e.1) = if keep k then lookup k es else none := by
  induction es with
  | nil => simp [lookup]
  | cons e es ih =>
    obtain ⟨k', v⟩ := e
    by_cases hk : k' = k
    · subst hk
      by_cases hkeep : keep k' = true
      · simp [lookup, hkeep]
      · simp [hkeep, ih]
    · by_cases hkeep : keep k' = true
      · simp [lookup, hkeep, hk, ih]
      · simp [lookup, hkeep, hk, ih]

@[simp] theorem get?_restrict (keep : κ → Bool) (m : OrderedMap κ ν) (k : κ) :
    (m.restrict keep).get? k = if keep k then m.get? k else none :=
  lookup_restrict keep k m.entries

theorem filter_setEntry (keep : κ → Bool) (k : κ) (v : ν) (es : List (κ × ν)) :
    (setEntry k v es).filter (fun e => keep e.1) =
      if keep k then setEntry k v (es.filter fun e => keep e.1) else es.filter fun e => keep e.1 := by
  induction es with
  | nil =>
    by_cases hk : keep k = true
    · simp [setEntry, hk]
    · simp [setEntry, hk]
  | cons e es ih =>
    obtain ⟨k', v'⟩ := e
    by_cases h : k' = k
    · subst h
      by_cases hk : keep k' = true
      · simp [setEntry, hk]
      · simp [setEntry, hk]
    · rw [setEntry, if_neg h, List.filter_cons, List.filter_cons, ih]
      by_cases hk : keep k = true
      · by_cases hk' : keep k' = true
        · simp [setEntry, hk, hk', h]
        · simp [hk, hk']
      · simp [hk]

/-- A key that is kept is written in what is kept. -/
theorem restrict_set {keep : κ → Bool} {k : κ} (h : keep k = true) (m : OrderedMap κ ν) (v : ν) :
    (m.set k v).restrict keep = (m.restrict keep).set k v := by
  ext1
  show (setEntry k v m.entries).filter _ = setEntry k v (m.entries.filter _)
  rw [filter_setEntry, if_pos h]

/-- A key that is not kept is written outside of it. -/
theorem restrict_set_of_not {keep : κ → Bool} {k : κ} (h : keep k = false) (m : OrderedMap κ ν)
    (v : ν) : (m.set k v).restrict keep = m.restrict keep := by
  ext1
  show (setEntry k v m.entries).filter _ = m.entries.filter _
  rw [filter_setEntry, if_neg (by simp [h])]

theorem restrict_erase (keep : κ → Bool) (k : κ) (m : OrderedMap κ ν) :
    (m.erase k).restrict keep = (m.restrict keep).erase k := by
  ext1
  show (m.entries.filter _).filter _ = (m.entries.filter _).filter _
  rw [List.filter_filter, List.filter_filter]
  exact List.filter_congr fun e _ => Bool.and_comm _ _

theorem restrict_erase_of_not {keep : κ → Bool} {k : κ} (h : keep k = false) (m : OrderedMap κ ν) :
    (m.erase k).restrict keep = m.restrict keep := by
  ext1
  show (m.entries.filter _).filter _ = m.entries.filter _
  rw [List.filter_filter]
  refine List.filter_congr fun e _ => ?_
  by_cases hk : e.1 = k
  · simp [hk, h]
  · simp [hk]

theorem restrict_foldl_set (keep : κ → Bool) (es : List (κ × ν)) (m : OrderedMap κ ν) :
    (es.foldl (fun m e => m.set e.1 e.2) m).restrict keep =
      (es.filter fun e => keep e.1).foldl (fun m e => m.set e.1 e.2) (m.restrict keep) := by
  induction es generalizing m with
  | nil => rfl
  | cons e es ih =>
    rw [List.foldl_cons, ih]
    by_cases h : keep e.1 = true
    · rw [restrict_set h, List.filter_cons_of_pos (by simpa using h), List.foldl_cons]
    · rw [restrict_set_of_not (by simpa using h), List.filter_cons_of_neg (by simpa using h)]

omit [DecidableEq κ] in
/-- A map all of whose keys are kept is kept whole. -/
theorem restrict_eq_self {keep : κ → Bool} {m : OrderedMap κ ν} (h : ∀ k ∈ m.keys, keep k = true) :
    m.restrict keep = m := by
  ext1
  exact List.filter_eq_self.2 fun e he => h e.1 (List.mem_map_of_mem he)

omit [DecidableEq κ] in
theorem restrict_eq_empty {keep : κ → Bool} {m : OrderedMap κ ν} (h : ∀ k ∈ m.keys, keep k = false) :
    m.restrict keep = ∅ := by
  ext1
  exact List.filter_eq_nil_iff.2 fun e he => by simp [h e.1 (List.mem_map_of_mem he)]

theorem lookup_eq_none_iff (k : κ) (es : List (κ × ν)) :
    lookup k es = none ↔ k ∉ es.map Prod.fst := by
  induction es with
  | nil => simp [lookup]
  | cons e es ih =>
    obtain ⟨k', v'⟩ := e
    by_cases h : k' = k
    · subst h; simp [lookup]
    · simp only [lookup, h, if_false, ih, List.map_cons, List.mem_cons, not_or]
      exact ⟨fun h' => ⟨Ne.symm h, h'⟩, fun h' => h'.2⟩

theorem get?_eq_none_iff (m : OrderedMap κ ν) (k : κ) : m.get? k = none ↔ k ∉ m.keys :=
  lookup_eq_none_iff k m.entries

theorem get?_isSome_iff (m : OrderedMap κ ν) (k : κ) : (m.get? k).isSome ↔ k ∈ m.keys := by
  rw [← not_iff_not, ← get?_eq_none_iff]
  cases m.get? k <;> simp

theorem lookup_eq_some_iff (k : κ) (v : ν) (es : List (κ × ν)) (h : (es.map Prod.fst).Nodup) :
    lookup k es = some v ↔ (k, v) ∈ es := by
  induction es with
  | nil => simp [lookup]
  | cons e es ih =>
    obtain ⟨k', v'⟩ := e
    simp only [List.map_cons, List.nodup_cons] at h
    by_cases hk : k' = k
    · subst hk
      simp only [lookup, if_true, Option.some.injEq, List.mem_cons, Prod.mk.injEq, true_and]
      refine ⟨fun hv => Or.inl hv.symm, ?_⟩
      rintro (hv | hm)
      · exact hv.symm
      · exact absurd (List.mem_map_of_mem (f := Prod.fst) hm) h.1
    · have hne : ¬ ((k, v) = (k', v')) := fun he => hk (congrArg Prod.fst he).symm
      simp [lookup, hk, ih h.2, hne]

/-- A key's value is the value of its entry. -/
theorem get?_eq_some_iff (m : OrderedMap κ ν) (k : κ) (v : ν) :
    m.get? k = some v ↔ (k, v) ∈ m.entries :=
  lookup_eq_some_iff k v m.entries m.nodup

theorem keys_set (m : OrderedMap κ ν) (k : κ) (v : ν) (j : κ) :
    j ∈ (m.set k v).keys ↔ j = k ∨ j ∈ m.keys :=
  mem_keys_setEntry k v m.entries j

theorem setEntry_of_not_mem (k : κ) (v : ν) (es : List (κ × ν)) (h : k ∉ es.map Prod.fst) :
    setEntry k v es = es ++ [(k, v)] := by
  induction es with
  | nil => rfl
  | cons e es ih =>
    obtain ⟨k', v'⟩ := e
    rw [List.map_cons, List.mem_cons, not_or] at h
    rw [setEntry, if_neg (Ne.symm h.1), ih h.2, List.cons_append]

/-- A key that has no entry gets one at the end. -/
theorem entries_set_of_not_mem (m : OrderedMap κ ν) (k : κ) (v : ν) (h : k ∉ m.keys) :
    (m.set k v).entries = m.entries ++ [(k, v)] :=
  setEntry_of_not_mem k v m.entries h

/-- Writing a list of entries, from left to right: the last write of a key stands. -/
theorem get?_foldl_set (es : List (κ × ν)) (m : OrderedMap κ ν) (k : κ) :
    (es.foldl (fun m e => m.set e.1 e.2) m).get? k =
      ((es.filter fun e => e.1 = k).getLast?.map Prod.snd).or (m.get? k) := by
  induction es generalizing m with
  | nil => simp
  | cons e es ih =>
    rw [List.foldl_cons, ih, get?_set]
    by_cases h : e.1 = k
    · rw [List.filter_cons_of_pos (by simpa using h), List.getLast?_cons]
      cases (es.filter fun e => e.1 = k).getLast? <;> simp [h]
    · rw [List.filter_cons_of_neg (by simpa using h)]
      simp [h]

/-- Writing what another map holds over a map: its keys stand, the others stay. -/
theorem get?_foldl_set_entries {μ : Type*} (f : μ → ν) (n : OrderedMap κ μ) (m : OrderedMap κ ν) (k : κ) :
    (n.entries.foldl (fun m e => m.set e.1 (f e.2)) m).get? k =
      ((n.get? k).map f).or (m.get? k) := by
  obtain ⟨es, hes⟩ := n
  show (es.foldl (fun m e => m.set e.1 (f e.2)) m).get? k = ((lookup k es).map f).or (m.get? k)
  induction es generalizing m with
  | nil => rfl
  | cons e es ih =>
    rw [List.map_cons, List.nodup_cons] at hes
    rw [List.foldl_cons, ih _ hes.2, get?_set, lookup]
    by_cases hkey : e.1 = k
    · rw [(lookup_eq_none_iff k es).2 (hkey ▸ hes.1), if_pos hkey, if_pos hkey]
      rfl
    · rw [if_neg hkey, if_neg hkey]

/-- A map built of entries of which each key determines its value holds exactly them. -/
theorem get?_ofList {es : List (κ × ν)}
    (h : ∀ e ∈ es, ∀ e' ∈ es, e.1 = e'.1 → e.2 = e'.2) (k : κ) (v : ν) :
    (ofList es).get? k = some v ↔ (k, v) ∈ es := by
  rw [ofList, get?_foldl_set]
  have hempty : (empty : OrderedMap κ ν).get? k = none := rfl
  rw [hempty, Option.or_none]
  constructor
  · intro hlast
    obtain ⟨e, he, rfl⟩ := Option.map_eq_some_iff.1 hlast
    obtain ⟨hmem, hkey⟩ := List.mem_filter.1 (List.mem_of_getLast? he)
    obtain rfl : e.1 = k := by simpa using hkey
    exact hmem
  · intro hmem
    have hmem' : (k, v) ∈ es.filter fun e => e.1 = k := List.mem_filter.2 ⟨hmem, by simp⟩
    obtain ⟨e, he⟩ : ∃ e, (es.filter fun e => e.1 = k).getLast? = some e :=
      Option.ne_none_iff_exists'.1 fun hnone => by
        rw [List.getLast?_eq_none_iff.1 hnone] at hmem'
        exact absurd hmem' (by simp)
    obtain ⟨hin, hkey⟩ := List.mem_filter.1 (List.mem_of_getLast? he)
    rw [he, Option.map_some, h e hin (k, v) hmem (by simpa using hkey)]

/-! ## Writing new keys

The entries of a map are distinct, so entries that come after others are under keys these do not have. -/

/-- A map that holds one entry more holds it under a new key. -/
theorem eq_set_of_concat {m m' : OrderedMap κ ν} {k : κ} {v : ν} (h : m'.entries = m.entries ++ [(k, v)]) :
    k ∉ m.keys ∧ m' = m.set k v := by
  have hnodup := m'.nodup
  rw [h, List.map_append, List.nodup_append] at hnodup
  have hnew : k ∉ m.keys := fun hmem => hnodup.2.2 k hmem k (by simp) rfl
  exact ⟨hnew, ext (h.trans (m.entries_set_of_not_mem k v hnew).symm)⟩

omit [DecidableEq κ] in
/-- The first entries of a map are those of a map. -/
theorem exists_entries {m : OrderedMap κ ν} {es fs : List (κ × ν)} (h : m.entries = es ++ fs) :
    ∃ n : OrderedMap κ ν, n.entries = es := by
  have hnodup := m.nodup
  rw [h, List.map_append, List.nodup_append] at hnodup
  exact ⟨⟨es, hnodup.1⟩, rfl⟩

omit [DecidableEq κ] in
/-- A loop whose turns each write new keys or fail writes all of them, and fails where one of its turns does. -/
theorem foldlM_written_iff {ε : Type*} {α κ ν : Type} {step : OrderedMap κ ν → α → Except ε (OrderedMap κ ν)}
    {valid : α → Prop} {written : α → List (κ × ν)}
    (hstep : ∀ m a m', step m a = .ok m' ↔ valid a ∧ m'.entries = m.entries ++ written a) {as : List α}
    {m m' : OrderedMap κ ν} :
    as.foldlM step m = .ok m' ↔ (∀ a ∈ as, valid a) ∧ m'.entries = m.entries ++ as.flatMap written := by
  induction as generalizing m with
  | nil =>
    rw [List.foldlM_nil, List.flatMap_nil, List.append_nil]
    constructor
    · intro h
      obtain rfl := Except.ok.inj h
      exact ⟨by simp, rfl⟩
    · rintro ⟨-, hentries⟩
      rw [ext hentries]
      rfl
  | cons a as ih =>
    rw [List.forall_mem_cons, List.flatMap_cons, ← List.append_assoc]
    constructor
    · intro h
      rw [List.foldlM_cons] at h
      obtain ⟨next, hnext, hrest⟩ := ExceptFold.bind_eq_ok h
      obtain ⟨hvalid, hwritten⟩ := (hstep m a next).1 hnext
      obtain ⟨hall, hentries⟩ := ih.1 hrest
      rw [hwritten] at hentries
      exact ⟨⟨hvalid, hall⟩, hentries⟩
    · rintro ⟨⟨hvalid, hall⟩, hentries⟩
      obtain ⟨next, hnext⟩ := exists_entries hentries
      rw [ExceptFold.foldlM_cons_ok ((hstep m a next).2 ⟨hvalid, hnext⟩), ih, hnext]
      exact ⟨hall, hentries⟩

end OrderedMap
