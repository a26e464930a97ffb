import Mathlib.Data.List.Dedup
import Mathlib.Data.List.Perm.Subperm

/-!
# Labels with a cap

A label publishes so many distinct values, first come first served, and folds every value after them into one.
What it publishes is determined by the order the values arrive in; what holds of it in any order is below.
-/

namespace CappedLabels

variable {α : Type*} [DecidableEq α] {max : Nat} {other : α} {published values : List α} {value : α}

/-- The values published once one more has arrived. -/
def publish (max : Nat) (published : List α) (value : α) : List α :=
  if value ∈ published then published
  else if max ≤ published.length then published
  else published ++ [value]

/-- The label of a value: its own where it is published. -/
def label (other : α) (published : List α) (value : α) : α := if value ∈ published then value else other

/-- The published values of a stream: distinct, no more than the cap, all of the stream, and none is left out
before the cap is reached. -/
structure Settled (max : Nat) (published values : List α) : Prop where
  nodup : published.Nodup
  capped : published.length ≤ max
  arrived : ∀ value ∈ published, value ∈ values
  full : ∀ value ∈ values, value ∉ published → max ≤ published.length

omit [DecidableEq α] in
theorem settled_nil : Settled max ([] : List α) [] :=
  ⟨List.nodup_nil, Nat.zero_le max, by simp, by simp⟩

theorem mem_publish_of_mem {v : α} (h : v ∈ published) : v ∈ publish max published value := by
  unfold publish
  split_ifs
  · exact h
  · exact h
  · exact List.mem_append_left _ h

theorem Settled.publish (h : Settled max published values) (value : α) :
    Settled max (publish max published value) (values ++ [value]) := by
  unfold CappedLabels.publish
  split_ifs with hin hfull
  · refine ⟨h.nodup, h.capped, fun v hv => List.mem_append_left _ (h.arrived v hv), ?_⟩
    intro v hv hout
    rcases List.mem_append.1 hv with hv | hv
    · exact h.full v hv hout
    · rw [List.mem_singleton.1 hv] at hout
      exact absurd hin hout
  · exact ⟨h.nodup, h.capped, fun v hv => List.mem_append_left _ (h.arrived v hv), fun _ _ _ => hfull⟩
  · have hroom : published.length < max := by omega
    refine ⟨?_, ?_, ?_, ?_⟩
    · rw [List.nodup_append]
      refine ⟨h.nodup, List.nodup_singleton value, ?_⟩
      rintro v hv w hw rfl
      rw [List.mem_singleton.1 hw] at hv
      exact hin hv
    · rw [List.length_append]
      exact hroom
    · intro v hv
      rcases List.mem_append.1 hv with hv | hv
      · exact List.mem_append_left _ (h.arrived v hv)
      · exact List.mem_append_right _ hv
    · intro v hv hout
      rw [List.mem_append, not_or] at hout
      rcases List.mem_append.1 hv with hv | hv
      · have := h.full v hv hout.1
        omega
      · exact absurd hv hout.2

/-- A value that was left out stays left out: the label a value got is the label it keeps. -/
theorem Settled.label_publish (h : Settled max published values) {v : α} (hv : v ∈ values) (value : α) :
    label other (CappedLabels.publish max published value) v = label other published v := by
  unfold label
  by_cases hin : v ∈ published
  · rw [if_pos hin, if_pos (mem_publish_of_mem hin)]
  · have hfull := h.full v hv hin
    have hsame : v ∉ CappedLabels.publish max published value := by
      unfold CappedLabels.publish
      split_ifs
      · exact hin
      · exact hin
    rw [if_neg hin, if_neg hsame]

/-- A stream with no more distinct values than the cap has every one of them published. -/
theorem Settled.exact (h : Settled max published values) (hfew : values.dedup.length ≤ max) (hv : value ∈ values) :
    value ∈ published := by
  by_contra hout
  have hmore : (value :: published).Subperm values.dedup := by
    refine List.subperm_of_subset (List.nodup_cons.2 ⟨hout, h.nodup⟩) ?_
    intro v hin
    rcases List.mem_cons.1 hin with rfl | hin
    · exact List.mem_dedup.2 hv
    · exact List.mem_dedup.2 (h.arrived v hin)
  have hlength := hmore.length_le
  have hfull := h.full value hv hout
  rw [List.length_cons] at hlength
  omega

/-- However many values arrive, there is one label more than the cap. -/
theorem Settled.labels_le (h : Settled max published values) (other : α) (labelled : List α) :
    (labelled.map (label other published)).dedup.length ≤ max + 1 := by
  have hsub : (labelled.map (label other published)).dedup.Subperm (other :: published) := by
    refine List.subperm_of_subset (List.nodup_dedup _) ?_
    intro l hl
    obtain ⟨v, -, rfl⟩ := List.mem_map.1 (List.mem_dedup.1 hl)
    unfold label
    split_ifs with hin
    · exact List.mem_cons_of_mem _ hin
    · exact List.mem_cons_self
  have hlength := hsub.length_le
  have hcapped := h.capped
  rw [List.length_cons] at hlength
  omega

end CappedLabels
