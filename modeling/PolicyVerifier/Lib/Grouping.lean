import Mathlib.Data.List.Induction
import PolicyVerifier.Lib.OrderedMap

/-!
# Grouping a list by a key

`groupBy` sends every element of a list to the end of its key's group, in one pass. The groups stand
in the order their keys first appear, and each is the sublist of the elements with its key.
-/

namespace OrderedMap

variable {α κ : Type*} [DecidableEq κ]

/-- One element put at the end of its key's group. -/
def addTo (key : α → κ) (m : OrderedMap κ (List α)) (a : α) : OrderedMap κ (List α) :=
  m.set (key a) ((m.get? (key a)).getD [] ++ [a])

/-- The elements of a list, grouped by their key. -/
def groupBy (key : α → κ) (l : List α) : OrderedMap κ (List α) := l.foldl (addTo key) empty

/-- The keys of a list, each once, in the order they first appear. -/
def firsts (key : α → κ) (l : List α) : List κ := (l.map key).eraseDups

theorem mem_firsts (key : α → κ) (l : List α) (k : κ) :
    k ∈ firsts key l ↔ ∃ a ∈ l, key a = k := by
  simp [firsts, List.mem_eraseDups]

/-- One more element adds itself to what a list holds, unless it is there. -/
theorem eraseDups_concat {α : Type*} [BEq α] [LawfulBEq α] (l : List α) (a : α)
    [Decidable (a ∈ l.eraseDups)] :
    (l ++ [a]).eraseDups = if a ∈ l.eraseDups then l.eraseDups else l.eraseDups ++ [a] := by
  by_cases h : a ∈ l.eraseDups
  · have h' : a ∈ l := List.mem_eraseDups.1 h
    rw [if_pos h]
    simp [List.eraseDups_append, List.removeAll, h']
  · have h' : a ∉ l := fun hm => h (List.mem_eraseDups.2 hm)
    have hf : ([a].removeAll l) = [a] := by
      simpa [List.removeAll, List.filter_eq_self] using h'
    rw [if_neg h]
    simp [List.eraseDups_append, hf, List.eraseDups_cons]

theorem firsts_concat (key : α → κ) (l : List α) (a : α) :
    firsts key (l ++ [a]) = if key a ∈ firsts key l then firsts key l
      else firsts key l ++ [key a] := by
  rw [firsts, List.map_append, List.map_singleton]
  exact eraseDups_concat (l.map key) (key a)

theorem setEntry_map {ν : Type*} (f : κ → ν) (k : κ) (v : ν) (ks : List κ) (hn : ks.Nodup)
    (h : k ∈ ks) :
    setEntry k v (ks.map fun j => (j, f j)) = ks.map fun j => (j, if j = k then v else f j) := by
  induction ks with
  | nil => simp at h
  | cons j ks ih =>
    obtain ⟨hj, hn'⟩ := List.nodup_cons.1 hn
    by_cases hjk : j = k
    · subst hjk
      have hrest : (ks.map fun i => (i, if i = j then v else f i)) = ks.map fun i => (i, f i) :=
        List.map_congr_left fun i hi => by
          have : i ≠ j := fun e => hj (e ▸ hi)
          simp [this]
      simp [setEntry, hrest]
    · have hk : k ∈ ks := (List.mem_cons.1 h).resolve_left (Ne.symm hjk)
      simp [setEntry, hjk, ih hn' hk]

/-- The groups of a list: the keys in the order they first appear, each with the elements that have
it, in list order. -/
theorem entries_groupBy (key : α → κ) (l : List α) :
    (groupBy key l).entries = (firsts key l).map fun k => (k, l.filter fun a => key a = k) := by
  induction l using List.reverseRecOn with
  | nil => simp [groupBy, firsts, empty]
  | append_singleton l a ih =>
    have hkeys : (groupBy key l).keys = firsts key l := by simp [keys, ih, Function.comp_def]
    have hstep : groupBy key (l ++ [a]) = addTo key (groupBy key l) a := by simp [groupBy]
    rw [hstep, firsts_concat]
    show setEntry (key a) _ (groupBy key l).entries = _
    by_cases h : key a ∈ firsts key l
    · have hn : (firsts key l).Nodup := hkeys ▸ (groupBy key l).nodup_keys
      have hget : (groupBy key l).get? (key a) = some (l.filter fun b => key b = key a) := by
        rw [get?_eq_some_iff, ih]
        exact List.mem_map_of_mem h
      rw [if_pos h, hget, ih, setEntry_map _ _ _ _ hn h]
      refine List.map_congr_left fun k _ => ?_
      by_cases hk : k = key a
      · subst hk; simp [List.filter_append]
      · simp [List.filter_append, hk, Ne.symm hk]
    · have hnone : (groupBy key l).get? (key a) = none := by rw [get?_eq_none_iff, hkeys]; exact h
      have hnot : key a ∉ (groupBy key l).entries.map Prod.fst := by
        have : (groupBy key l).entries.map Prod.fst = firsts key l := hkeys
        rw [this]; exact h
      have hempty : (l.filter fun b => key b = key a) = [] := by
        rw [List.filter_eq_nil_iff]
        intro b hb
        simpa using fun e => h ((mem_firsts key l _).2 ⟨b, hb, e⟩)
      rw [if_neg h, hnone, setEntry_of_not_mem _ _ _ hnot, ih, List.map_append]
      congr 1
      · refine List.map_congr_left fun k hk => ?_
        have hne : key a ≠ k := fun e => h (e ▸ hk)
        simp [List.filter_append, hne]
      · simp [List.filter_append, hempty]

/-- A group holds elements of the list that have its key. -/
theorem mem_group (key : α → κ) (l : List α) {g : κ × List α} (hg : g ∈ (groupBy key l).entries) {a : α}
    (ha : a ∈ g.2) : a ∈ l ∧ key a = g.1 := by
  rw [entries_groupBy] at hg
  obtain ⟨k, -, rfl⟩ := List.mem_map.1 hg
  obtain ⟨hmem, hkey⟩ := List.mem_filter.1 ha
  exact ⟨hmem, by simpa using hkey⟩

/-- An element whose key no other has is a group of its own, among the groups there are without it. -/
theorem groupBy_insert (key : α → κ) (before after : List α) (a : α)
    (hother : ∀ b ∈ before ++ after, key b ≠ key a) :
    ∃ earlier later, (groupBy key (before ++ after)).entries = earlier ++ later ∧
      (groupBy key (before ++ a :: after)).entries = earlier ++ (key a, [a]) :: later := by
  have hbefore : key a ∉ before.map key := by
    rintro h
    obtain ⟨b, hb, hkey⟩ := List.mem_map.1 h
    exact hother b (List.mem_append_left _ hb) hkey
  have hafter : key a ∉ (after.map key).removeAll (before.map key) := by
    intro h
    obtain ⟨b, hb, hkey⟩ := List.mem_map.1 (List.mem_filter.1 h).1
    exact hother b (List.mem_append_right _ hb) hkey
  have hfirsts : firsts key (before ++ after) =
      (before.map key).eraseDups ++ ((after.map key).removeAll (before.map key)).eraseDups := by
    rw [firsts, List.map_append, List.eraseDups_append]
  have hinserted : firsts key (before ++ a :: after) = (before.map key).eraseDups ++
      key a :: ((after.map key).removeAll (before.map key)).eraseDups := by
    have hnew : (key a :: after.map key).removeAll (before.map key) =
        key a :: (after.map key).removeAll (before.map key) :=
      List.filter_cons_of_pos (by simpa using hbefore)
    rw [firsts, List.map_append, List.map_cons, List.eraseDups_append, hnew, List.eraseDups_cons]
    have hself : ((after.map key).removeAll (before.map key)).filter (fun k => !k == key a) =
        (after.map key).removeAll (before.map key) :=
      List.filter_eq_self.2 fun k hk => by simpa using ne_of_mem_of_not_mem hk hafter
    rw [hself]
  have hkeep : ∀ k, k ≠ key a → (before ++ a :: after).filter (fun b => key b = k) =
      (before ++ after).filter fun b => key b = k := by
    intro k hk
    simp [List.filter_append, Ne.symm hk]
  have hown : (before ++ a :: after).filter (fun b => key b = key a) = [a] := by
    have hnone : ∀ l : List α, (∀ b ∈ l, key b ≠ key a) → l.filter (fun b => key b = key a) = [] := by
      intro l hl
      rw [List.filter_eq_nil_iff]
      intro b hb
      simpa using hl b hb
    simp [List.filter_append, hnone before fun b hb => hother b (List.mem_append_left _ hb),
      hnone after fun b hb => hother b (List.mem_append_right _ hb)]
  set group : κ → κ × List α := fun k => (k, (before ++ after).filter fun b => key b = k) with hgroup
  refine ⟨(before.map key).eraseDups.map group,
    ((after.map key).removeAll (before.map key)).eraseDups.map group, ?_, ?_⟩
  · rw [entries_groupBy, hfirsts, List.map_append]
  · rw [entries_groupBy, hinserted, List.map_append, List.map_cons, hown]
    congr 1
    · refine List.map_congr_left fun k hk => ?_
      rw [hgroup, hkeep k (ne_of_mem_of_not_mem (List.mem_eraseDups.1 hk) hbefore)]
    · congr 1
      refine List.map_congr_left fun k hk => ?_
      rw [hgroup, hkeep k (ne_of_mem_of_not_mem (List.mem_eraseDups.1 hk) hafter)]

/-- Every group holds an element. -/
theorem group_ne_nil (key : α → κ) (l : List α) {k : κ} {g : List α}
    (h : (k, g) ∈ (groupBy key l).entries) : g ≠ [] := by
  rw [entries_groupBy] at h
  obtain ⟨k', hk', he⟩ := List.mem_map.1 h
  obtain ⟨a, ha, hka⟩ := (mem_firsts key l k').1 hk'
  obtain ⟨rfl, rfl⟩ := Prod.mk.injEq .. ▸ he
  exact List.ne_nil_of_mem (List.mem_filter.2 ⟨ha, by simpa using hka⟩)

end OrderedMap
