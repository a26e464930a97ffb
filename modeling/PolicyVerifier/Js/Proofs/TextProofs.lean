import Mathlib.Algebra.Group.Nat.Defs
import Mathlib.Data.List.Infix
import PolicyVerifier.Js.Text

/-!
# What reading a string comes to

Where `indexOf` finds a part, and what hexadecimal digits are read back as.
-/

namespace Js

/-! ## Searching -/

theorem startsWith_iff {part s : Str} : startsWith part s = true ↔ part <+: s :=
  List.isPrefixOf_iff_prefix

/-- `indexOf` finds the first place where the part stands. -/
theorem indexOf_eq_some_iff {part s : Str} {i : Nat} :
    indexOf part s = some i ↔
      (∃ front back, s = front ++ part ++ back ∧ front.length = i) ∧
        ∀ front back, s = front ++ part ++ back → i ≤ front.length := by
  induction s generalizing i with
  | nil =>
    rw [indexOf]
    by_cases hpart : part = []
    · subst hpart
      rw [if_pos rfl, Option.some.injEq]
      constructor
      · rintro rfl
        exact ⟨⟨[], [], rfl, rfl⟩, fun _ _ _ => Nat.zero_le _⟩
      · rintro ⟨-, hleast⟩
        exact (Nat.le_zero.1 (hleast [] [] rfl)).symm
    · rw [if_neg hpart]
      refine iff_of_false (by simp) ?_
      rintro ⟨⟨front, back, h, -⟩, -⟩
      simp only [List.nil_eq, List.append_eq_nil_iff] at h
      exact hpart h.1.2
  | cons c s ih =>
    rw [indexOf]
    by_cases hstarts : startsWith part (c :: s) = true
    · obtain ⟨rest, hrest⟩ := startsWith_iff.1 hstarts
      rw [if_pos hstarts, Option.some.injEq]
      constructor
      · rintro rfl
        exact ⟨⟨[], rest, by simpa using hrest.symm, rfl⟩, fun _ _ _ => Nat.zero_le _⟩
      · rintro ⟨-, hleast⟩
        exact (Nat.le_zero.1 (hleast [] rest (by simpa using hrest.symm))).symm
    · rw [if_neg hstarts, Option.map_eq_some_iff]
      -- the part stands nowhere at the head, so it stands in the tail or not at all
      have htail : ∀ front back, c :: s = front ++ part ++ back →
          ∃ front', front = c :: front' ∧ s = front' ++ part ++ back := by
        intro front back h
        cases front with
        | nil => exact absurd (startsWith_iff.2 ⟨back, by simpa using h.symm⟩) hstarts
        | cons d front =>
          obtain ⟨rfl, rfl⟩ := List.cons.inj h
          exact ⟨front, rfl, rfl⟩
      constructor
      · rintro ⟨k, hk, rfl⟩
        obtain ⟨⟨front, back, rfl, rfl⟩, hleast⟩ := ih.1 hk
        refine ⟨⟨c :: front, back, rfl, rfl⟩, fun front' back' h => ?_⟩
        obtain ⟨tail, rfl, htail⟩ := htail front' back' h
        exact Nat.succ_le_succ (hleast tail back' htail)
      · rintro ⟨⟨front, back, h, rfl⟩, hleast⟩
        obtain ⟨tail, rfl, htail⟩ := htail front back h
        refine ⟨tail.length, ih.2 ⟨⟨tail, back, htail, rfl⟩, fun front' back' h' => ?_⟩, rfl⟩
        have := hleast (c :: front') back' (by rw [h']; rfl)
        simpa using this

/-! ## Hexadecimal digits -/

theorem hexDigit_unit {n : Nat} (h : n < 16) : units n.digitChar = [Json.hexDigit n] := by
  revert n
  decide

theorem hexDigitValue_hexDigit {n : Nat} (h : n < 16) :
    isHexDigit (Json.hexDigit n) = true ∧ hexDigitValue (Json.hexDigit n) = n := by
  revert n
  decide

/-- The digits of a number, from its last one on. -/
theorem hexadecimal_eq (n : Nat) : hexadecimal n =
    if n < 16 then [Json.hexDigit n] else hexadecimal (n / 16) ++ [Json.hexDigit (n % 16)] := by
  unfold hexadecimal
  rw [Nat.toDigits_eq_if (by omega)]
  split
  · rename_i h
    simp [hexDigit_unit h]
  · simp [hexDigit_unit (Nat.mod_lt n (by omega : 16 > 0))]

theorem isHexDigit_hexadecimal (n : Nat) : ∀ c ∈ hexadecimal n, isHexDigit c = true := by
  induction n using Nat.strong_induction_on with
  | _ n ih =>
    intro c hc
    rw [hexadecimal_eq] at hc
    split at hc
    · rename_i h
      obtain rfl := List.mem_singleton.1 hc
      exact (hexDigitValue_hexDigit h).1
    · rcases List.mem_append.1 hc with hc | hc
      · exact ih (n / 16) (by omega) c hc
      · obtain rfl := List.mem_singleton.1 hc
        exact (hexDigitValue_hexDigit (Nat.mod_lt n (by omega))).1

/-- A number is read back off its hexadecimal digits. -/
theorem parseHex_hexadecimal (n : Nat) : parseHex (hexadecimal n) = n := by
  induction n using Nat.strong_induction_on with
  | _ n ih =>
    rw [hexadecimal_eq]
    split
    · rename_i h
      simp [parseHex, (hexDigitValue_hexDigit h).2]
    · have hlast := (hexDigitValue_hexDigit (Nat.mod_lt n (by omega : 16 > 0))).2
      have hfront := ih (n / 16) (by omega)
      unfold parseHex at hfront ⊢
      rw [List.foldl_append, hfront, List.foldl_cons, List.foldl_nil, hlast]
      omega

theorem length_hexadecimal_pos (n : Nat) : 0 < (hexadecimal n).length := by
  rw [hexadecimal_eq]
  split <;> simp

theorem length_hexadecimal_le {n k : Nat} (hk : 0 < k) (h : n < 16 ^ k) : (hexadecimal n).length ≤ k := by
  induction k generalizing n with
  | zero => omega
  | succ k ih =>
    rw [hexadecimal_eq]
    split
    · simp
    · rw [List.length_append, List.length_singleton]
      rcases Nat.eq_zero_or_pos k with rfl | hpos
      · omega
      · have := ih hpos (n := n / 16) (by rw [Nat.div_lt_iff_lt_mul (by omega), ← Nat.pow_succ]; exact h)
        omega

end Js
