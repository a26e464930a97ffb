import Mathlib.Data.List.Basic

/-!
# Parts that are told apart

A sequence of parts written one after the other is read back in one way where a mark stands between them that
they do not hold, or where each part is framed: its length as a numeral, a mark, the part, another mark. Framed
parts may hold anything, marks and numerals included.
-/

namespace Framing

variable {α : Type*}

/-! ## Marks -/

/-- A list is cut in one way at the first of a mark. -/
theorem cut_at_first {mark : α} {s s' t t' : List α} (hs : mark ∉ s) (hs' : mark ∉ s')
    (h : s ++ mark :: t = s' ++ mark :: t') : s = s' ∧ t = t' := by
  rcases List.append_eq_append_iff.1 h with ⟨u, rfl, hu⟩ | ⟨u, rfl, hu⟩
  · cases u with
    | nil => exact ⟨by simp, (List.cons.inj hu).2⟩
    | cons x u => exact absurd (List.mem_append_right s (by simp [(List.cons.inj hu).1])) hs'
  · cases u with
    | nil => exact ⟨by simp, (List.cons.inj hu).2.symm⟩
    | cons x u => exact absurd (List.mem_append_right s' (by simp [(List.cons.inj hu).1])) hs

/-- And in one way at the last of it. -/
theorem cut_at_last {mark : α} {s s' t t' : List α} (ht : mark ∉ t) (ht' : mark ∉ t')
    (h : s ++ mark :: t = s' ++ mark :: t') : s = s' ∧ t = t' := by
  have hreverse : t.reverse ++ mark :: s.reverse = t'.reverse ++ mark :: s'.reverse := by
    simpa using congrArg List.reverse h
  obtain ⟨hparts, hrest⟩ := cut_at_first (by simpa using ht) (by simpa using ht') hreverse
  exact ⟨List.reverse_injective hrest, List.reverse_injective hparts⟩

/-! ## Frames -/

/-- A part with its length before it and a mark on either side. -/
def frame (numeral : ℕ → List α) (opening closing : α) (part : List α) : List α :=
  numeral part.length ++ opening :: (part ++ [closing])

/-- Numerals that tell their numbers apart and end where the mark stands. -/
structure Numerals (numeral : ℕ → List α) (opening : α) : Prop where
  injective : Function.Injective numeral
  ends : ∀ n, opening ∉ numeral n

section

variable {numeral : ℕ → List α} {opening closing : α}

/-- A frame says where it ends, whatever comes after it. -/
theorem frame_append_inj (h : Numerals numeral opening) {part part' rest rest' : List α}
    (heq : frame numeral opening closing part ++ rest = frame numeral opening closing part' ++ rest') :
    part = part' ∧ rest = rest' := by
  simp only [frame, List.append_assoc, List.cons_append, List.nil_append] at heq
  obtain ⟨hnumeral, hpart⟩ := cut_at_first (h.ends _) (h.ends _) heq
  obtain ⟨rfl, hrest⟩ := List.append_inj hpart (h.injective hnumeral)
  exact ⟨rfl, (List.cons.inj hrest).2⟩

theorem frame_ne_nil (part : List α) : frame numeral opening closing part ≠ [] := by
  simp [frame]

/-- Frames one after the other are read back in one way, with no count of them written. -/
theorem flatMap_frame_inj (h : Numerals numeral opening) {parts parts' : List (List α)} :
    parts.flatMap (frame numeral opening closing) = parts'.flatMap (frame numeral opening closing) ↔
      parts = parts' := by
  refine ⟨fun heq => ?_, congrArg _⟩
  induction parts generalizing parts' with
  | nil =>
    cases parts' with
    | nil => rfl
    | cons part' parts' =>
      rw [List.flatMap_nil, List.flatMap_cons, eq_comm, List.append_eq_nil_iff] at heq
      exact absurd heq.1 (frame_ne_nil part')
  | cons part parts ih =>
    cases parts' with
    | nil =>
      rw [List.flatMap_nil, List.flatMap_cons, List.append_eq_nil_iff] at heq
      exact absurd heq.1 (frame_ne_nil part)
    | cons part' parts' =>
      rw [List.flatMap_cons, List.flatMap_cons] at heq
      obtain ⟨rfl, hrest⟩ := frame_append_inj h heq
      rw [ih hrest]

end

end Framing
