import Mathlib.Data.List.Basic
import Mathlib.Data.List.Nodup
import Mathlib.Data.List.Perm.Basic
import Mathlib.Data.Set.List

/-!
# Lists written out of order

A list of slots is filled by writing entries, each at its own place, in whatever order they come. Where the
places are those of the list, each once, every slot is filled, with the entry of its place.
-/

namespace Scatter

variable {α : Type*}

/-- The slots once the entries are written, each at its place. -/
def write (entries : List (ℕ × α)) (slots : List (Option α)) : List (Option α) :=
  entries.foldl (fun slots entry => slots.set entry.1 (some entry.2)) slots

@[simp] theorem write_nil (slots : List (Option α)) : write [] slots = slots := rfl

theorem write_cons (entry : ℕ × α) (entries : List (ℕ × α)) (slots : List (Option α)) :
    write (entry :: entries) slots = write entries (slots.set entry.1 (some entry.2)) := rfl

@[simp] theorem length_write (entries : List (ℕ × α)) (slots : List (Option α)) :
    (write entries slots).length = slots.length := by
  induction entries generalizing slots with
  | nil => rfl
  | cons entry entries ih => rw [write_cons, ih, List.length_set]

/-- A place that is not written to keeps what it holds. -/
theorem getElem?_write_of_not_mem {entries : List (ℕ × α)} {slots : List (Option α)} {i : ℕ}
    (h : i ∉ entries.map Prod.fst) : (write entries slots)[i]? = slots[i]? := by
  induction entries generalizing slots with
  | nil => rfl
  | cons entry entries ih =>
    rw [List.map_cons, List.mem_cons, not_or] at h
    rw [write_cons, ih h.2, List.getElem?_set_ne (Ne.symm h.1)]

/-- A place that is written to once holds what was written. -/
theorem getElem?_write_of_mem {entries : List (ℕ × α)} {slots : List (Option α)} {i : ℕ} {x : α}
    (hnodup : (entries.map Prod.fst).Nodup) (hmem : (i, x) ∈ entries) (hi : i < slots.length) :
    (write entries slots)[i]? = some (some x) := by
  induction entries generalizing slots with
  | nil => exact absurd hmem List.not_mem_nil
  | cons entry entries ih =>
    rw [List.map_cons, List.nodup_cons] at hnodup
    rw [write_cons]
    rcases List.mem_cons.1 hmem with rfl | hmem
    · rw [getElem?_write_of_not_mem hnodup.1, List.getElem?_set_self hi]
    · exact ih hnodup.2 hmem (by rwa [List.length_set])

/-- Entries of all the places fill the list: there is no hole, and at each place stands its entry. -/
theorem exists_write_eq {entries : List (ℕ × α)}
    (hplaces : (entries.map Prod.fst).Perm (List.range entries.length)) :
    ∃ xs : List α, write entries (List.replicate entries.length none) = xs.map some ∧
      ∀ i x, xs[i]? = some x ↔ (i, x) ∈ entries := by
  have hnodup : (entries.map Prod.fst).Nodup := hplaces.nodup_iff.2 List.nodup_range
  have hlength : (write entries (List.replicate entries.length none)).length = entries.length := by
    rw [length_write, List.length_replicate]
  have hbound : ∀ {i x}, (i, x) ∈ entries → i < entries.length := fun hmem =>
    List.mem_range.1 (hplaces.mem_iff.1 (List.mem_map.2 ⟨_, hmem, rfl⟩))
  have hfilled : ∀ {i x}, (i, x) ∈ entries →
      (write entries (List.replicate entries.length none))[i]? = some (some x) := fun hmem =>
    getElem?_write_of_mem hnodup hmem (by rw [List.length_replicate]; exact hbound hmem)
  -- every place of the list has an entry
  have hentry : ∀ i < entries.length, ∃ x, (i, x) ∈ entries := by
    intro i hi
    obtain ⟨⟨j, x⟩, hmem, rfl⟩ := List.mem_map.1 (hplaces.mem_iff.2 (List.mem_range.2 hi))
    exact ⟨x, hmem⟩
  have hsome : ∀ slot ∈ write entries (List.replicate entries.length none), slot ∈ Set.range some := by
    intro slot hslot
    obtain ⟨i, hi, rfl⟩ := List.getElem_of_mem hslot
    obtain ⟨x, hmem⟩ := hentry i (hlength ▸ hi)
    have hx := hfilled hmem
    rw [List.getElem?_eq_getElem hi, Option.some.injEq] at hx
    exact ⟨x, hx.symm⟩
  obtain ⟨xs, hxs⟩ : ∃ xs : List α, xs.map some = write entries (List.replicate entries.length none) :=
    (Set.ext_iff.1 (Set.range_list_map some) _).2 hsome
  refine ⟨xs, hxs.symm, fun i x => ?_⟩
  have hat : ∀ y, (write entries (List.replicate entries.length none))[i]? = some (some y) ↔ xs[i]? = some y := by
    intro y
    rw [← hxs, List.getElem?_map, Option.map_eq_some_iff]
    simp
  rw [← hat]
  constructor
  · intro hx
    have hi : i < entries.length := by
      rw [← hlength]
      exact (List.getElem?_eq_some_iff.1 hx).1
    obtain ⟨y, hmem⟩ := hentry i hi
    rw [hfilled hmem, Option.some.injEq, Option.some.injEq] at hx
    exact hx ▸ hmem
  · exact hfilled

end Scatter
