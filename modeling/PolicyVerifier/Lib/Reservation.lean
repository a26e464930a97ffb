import Mathlib.Logic.Function.Basic

/-!
# Reservations

A table of reserved keys beside the parties that may hold one each. The table is exact when no key has two
holders and the reserved keys are the held ones; taking a free key and giving one's own back keep it so.
-/

namespace Reservation

variable {ι κ : Type*}

/-- Every reserved key has one holder, and every held key is reserved. -/
structure Exact (reserved : κ → Prop) (holder : ι → Option κ) : Prop where
  one : ∀ i j k, holder i = some k → holder j = some k → i = j
  held : ∀ k, reserved k ↔ ∃ i, holder i = some k

variable {reserved : κ → Prop} {holder : ι → Option κ}

theorem Exact.congr {reserved' : κ → Prop} (h : Exact reserved holder)
    (heq : ∀ k, reserved' k ↔ reserved k) : Exact reserved' holder :=
  ⟨h.one, fun k => (heq k).trans (h.held k)⟩

variable [DecidableEq ι]

/-- A party that holds nothing takes a key that is free. -/
theorem Exact.acquire (h : Exact reserved holder) {i : ι} {k : κ} (hi : holder i = none) (hk : ¬ reserved k) :
    Exact (fun l => l = k ∨ reserved l) (Function.update holder i (some k)) := by
  have hfree : ∀ j, holder j ≠ some k := fun j hj => hk ((h.held k).2 ⟨j, hj⟩)
  refine ⟨fun j j' l hj hj' => ?_, fun l => ?_⟩
  · rw [Function.update_apply] at hj hj'
    split at hj
    · rename_i hji
      split at hj'
      · rename_i hji'
        exact hji.trans hji'.symm
      · exact absurd (hj'.trans hj.symm) (hfree j')
    · split at hj'
      · exact absurd (hj.trans hj'.symm) (hfree j)
      · exact h.one j j' l hj hj'
  · rw [h.held l]
    constructor
    · rintro (rfl | ⟨j, hj⟩)
      · exact ⟨i, Function.update_self ..⟩
      · refine ⟨j, ?_⟩
        rw [Function.update_of_ne]
        · exact hj
        · rintro rfl
          exact absurd (hi.symm.trans hj) (by simp)
    · rintro ⟨j, hj⟩
      rw [Function.update_apply] at hj
      split at hj
      · exact Or.inl (Option.some.inj hj).symm
      · exact Or.inr ⟨j, hj⟩

/-- A party gives back the key it holds. -/
theorem Exact.release (h : Exact reserved holder) {i : ι} {k : κ} (hi : holder i = some k) :
    Exact (fun l => l ≠ k ∧ reserved l) (Function.update holder i none) := by
  have hold : ∀ j l, Function.update holder i none j = some l → j ≠ i ∧ holder j = some l := by
    intro j l hj
    rw [Function.update_apply] at hj
    split at hj
    · exact absurd hj (by simp)
    · rename_i hji
      exact ⟨hji, hj⟩
  refine ⟨fun j j' l hj hj' => h.one j j' l (hold j l hj).2 (hold j' l hj').2, fun l => ?_⟩
  rw [h.held l]
  constructor
  · rintro ⟨hne, j, hj⟩
    refine ⟨j, ?_⟩
    rw [Function.update_of_ne]
    · exact hj
    · rintro rfl
      exact hne (Option.some.inj (hj.symm.trans hi))
  · rintro ⟨j, hj⟩
    obtain ⟨hji, hj⟩ := hold j l hj
    refine ⟨?_, j, hj⟩
    rintro rfl
    exact hji (h.one j i l hj hi)

omit [DecidableEq ι] in
/-- A key taken for a party that then does not hold it is reserved and held by nobody. -/
theorem Exact.lost (h : Exact reserved holder) {k : κ} (hk : ¬ reserved k) :
    ¬ Exact (fun l => l = k ∨ reserved l) holder := fun h' =>
  hk ((h.held k).2 ((h'.held k).1 (Or.inl rfl)))

end Reservation
